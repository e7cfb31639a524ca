import KernelLaunch.Device.Toml
import KernelLaunch.Proofs.Json.Strings
/-!
# Lines of a text and the spans that point at them

`linesWithBreaks` cuts a text after each line feed. Put back together the lines give the text
(`join_linesWithBreaks`), and each line is a run of characters without a line feed, ended by one
unless it is the last line (`linesWithBreaks_eq_append_cons`).

`Span.ofLine` points at a line without its line end and its surrounding white space. Taken at the
first byte of the line in a text, it covers the bytes of the trimmed line (`extract_ofLine`).
-/

namespace KernelLaunch

open Reader

namespace Reader

theorem length_utf8 (s : String) : (utf8 s).length = s.utf8ByteSize := by
  rw [← String.size_toByteArray, ← String.toUTF8_eq_toByteArray, toUTF8_eq, List.size_toByteArray]

theorem extract_toByteArray (l : List UInt8) (i j : Nat) :
    l.toByteArray.extract i j = ((l.drop i).take (j - i)).toByteArray := by
  apply ByteArray.ext
  simp [ByteArray.data_extract]

end Reader

/-! ## Trimming -/

namespace Text

/-- The trimmed text is what follows the leading white space, without the trailing white space. -/
theorem toList_trim (s : String) : (trim s).toList = (s.toList.dropWhile isBlank).rdropWhile isBlank :=
  String.toList_ofList

/-- A text is its leading white space, its trimmed text and its trailing white space; dropping
only the leading white space leaves the last two. -/
theorem toList_eq_trim (s : String) :
    ∃ lead trail, s.toList = lead ++ (trim s).toList ++ trail ∧ (trimStart s).toList = (trim s).toList ++ trail := by
  refine ⟨s.toList.takeWhile isBlank, (s.toList.dropWhile isBlank).rtakeWhile isBlank, ?_, ?_⟩
  · rw [toList_trim, List.append_assoc, List.rdropWhile_append_rtakeWhile, List.takeWhile_append_dropWhile]
  · rw [toList_trim, List.rdropWhile_append_rtakeWhile]
    exact String.toList_ofList

/-- White space after a text leaves its trimmed text as it is. -/
theorem trim_append_of_blank {s : String} {e : List Char} (he : ∀ c ∈ e, isBlank c) :
    trim (s ++ String.ofList e) = trim s := by
  unfold trim
  rw [String.toList_append, String.toList_ofList, List.dropWhile_append]
  congr 1
  split
  · -- a text of white space only trims to nothing, with or without more of it
    rename_i hall
    rw [List.isEmpty_iff.mp hall, List.dropWhile_eq_nil_iff.mpr he]
  · rw [List.reverse_append, List.dropWhile_append_of_pos (by simpa using he)]

end Text

namespace DeviceConfig

/-! ## Cutting a text into lines -/

/-- The lines hold the characters read so far, last first, and then the rest of the text. -/
theorem flatten_splitLines : ∀ (cs line : List Char), (splitLines cs line).flatten = line.reverse ++ cs
  | [], [] => rfl
  | [], _ :: _ => by simp [splitLines]
  | c :: cs, line => by
      by_cases hc : c = '\n'
      · simp [splitLines, hc, flatten_splitLines cs []]
      · simp [splitLines, hc, flatten_splitLines cs (c :: line)]

/-- A line is a run of characters without a line feed, followed by one, or the last line, not
empty and without a line feed. The characters read so far, `line`, hold no line feed. -/
theorem splitLines_eq_append_cons : ∀ (cs line : List Char) (pre : List (List Char)) (l : List Char)
    (post : List (List Char)), '\n' ∉ line → splitLines cs line = pre ++ l :: post →
    ∃ body, '\n' ∉ body ∧ (l = body ++ ['\n'] ∨ post = [] ∧ l = body ∧ body ≠ [])
  | [], [], pre, l, post, _, h => by simp [splitLines] at h
  | [], c :: line, pre, l, post, hline, h => by
      -- the last line is what was read since the last line feed
      rw [show splitLines [] (c :: line) = [(c :: line).reverse] from rfl] at h
      obtain ⟨rfl, rfl, rfl⟩ : pre = [] ∧ l = (c :: line).reverse ∧ post = [] := by
        cases pre with
        | nil => simpa [eq_comm] using h
        | cons p pre => simp at h
      exact ⟨_, by rwa [List.mem_reverse], .inr ⟨rfl, rfl, by simp⟩⟩
  | c :: cs, line, pre, l, post, hline, h => by
      by_cases hc : c = '\n'
      · rw [splitLines, if_pos hc] at h
        cases pre with
        | nil =>
            -- a line feed ends the line being read
            obtain ⟨rfl, -⟩ := List.cons_eq_cons.mp h.symm
            exact ⟨line.reverse, by rwa [List.mem_reverse], .inl (by simp [hc])⟩
        | cons p pre =>
            obtain ⟨-, h⟩ := List.cons_eq_cons.mp h
            exact splitLines_eq_append_cons cs [] pre l post (List.not_mem_nil) h
      · rw [splitLines, if_neg hc] at h
        exact splitLines_eq_append_cons cs (c :: line) pre l post
          (by simp [hline, Ne.symm hc]) h

/-- The lines of a text, put back together, are the text. -/
theorem join_linesWithBreaks (text : String) : String.join (linesWithBreaks text) = text := by
  apply String.toList_inj.mp
  simp only [linesWithBreaks, String.toList_join, List.flatMap_map, String.toList_ofList,
    List.flatMap_id']
  simpa using flatten_splitLines text.toList []

/-- Every line of a text is a run of characters without a line feed, followed by one unless it is
the last line; the last line is then not empty. -/
theorem linesWithBreaks_eq_append_cons {text l : String} {pre post : List String}
    (h : linesWithBreaks text = pre ++ l :: post) :
    ∃ body : String, '\n' ∉ body.toList ∧ (l = body ++ "\n" ∨ post = [] ∧ l = body ∧ body ≠ "") := by
  obtain ⟨pre', rest, hsplit, rfl, hrest⟩ := List.map_eq_append_iff.mp h
  obtain ⟨l', post', rfl, rfl, rfl⟩ := List.map_eq_cons_iff.mp hrest
  obtain ⟨body, hbody, hl⟩ := splitLines_eq_append_cons _ [] pre' l' post' List.not_mem_nil hsplit
  refine ⟨String.ofList body, by simpa using hbody, ?_⟩
  rcases hl with rfl | ⟨rfl, rfl, hne⟩
  · left
    apply String.toList_inj.mp
    simp
  · right
    simpa using hne

/-! ## Spans of lines -/

/-- A line is the line without its line end, followed by white space. -/
theorem eq_dropLineEnd_append (line : String) :
    ∃ ending : String, line = dropLineEnd line ++ ending ∧ ∀ c ∈ ending.toList, Text.isBlank c := by
  let isEnd : Char → Bool := fun c => c = '\n' || c = '\r'
  -- the line end is the longest run of line feeds and carriage returns at the end
  refine ⟨String.ofList (line.toList.rtakeWhile isEnd), ?_, ?_⟩
  · apply String.toList_inj.mp
    rw [String.toList_append, String.toList_ofList, dropLineEnd, String.toList_ofList]
    exact (List.rdropWhile_append_rtakeWhile (p := isEnd)).symm
  · intro c hc
    rw [String.toList_ofList] at hc
    have hend : c = '\n' ∨ c = '\r' := by simpa [isEnd] using List.mem_rtakeWhile_imp hc
    rcases hend with rfl | rfl <;> decide

/-- Dropping the line end of a line leaves its trimmed text as it is. -/
theorem trim_dropLineEnd (line : String) : Text.trim (dropLineEnd line) = Text.trim line := by
  obtain ⟨ending, hline, hblank⟩ := eq_dropLineEnd_append line
  conv_rhs => rw [hline, ← String.ofList_toList (s := ending)]
  rw [Text.trim_append_of_blank (by simpa using hblank)]

/-- The span of a line, taken at the first byte of the line in a text, covers the bytes of the
line without its line end and its surrounding white space. -/
theorem extract_ofLine (pre line post : String) :
    let span := Span.ofLine pre.utf8ByteSize (dropLineEnd line)
    (pre ++ line ++ post).toUTF8.extract span.start span.stop = (Text.trim line).toUTF8 := by
  intro span
  obtain ⟨lead, trail, hsplit, hstart⟩ := Text.toList_eq_trim (dropLineEnd line)
  obtain ⟨ending, hline, -⟩ := eq_dropLineEnd_append line
  rw [← trim_dropLineEnd]
  -- the bytes of the line: its leading white space, its trimmed text, and the rest
  have hD : utf8 (dropLineEnd line) = lead.flatMap String.utf8EncodeChar ++ utf8 (Text.trim (dropLineEnd line)) ++
      trail.flatMap String.utf8EncodeChar := by
    simp only [utf8, hsplit, List.flatMap_append]
  have hS : utf8 (Text.trimStart (dropLineEnd line)) = utf8 (Text.trim (dropLineEnd line)) ++
      trail.flatMap String.utf8EncodeChar := by
    simp only [utf8, hstart, List.flatMap_append]
  have hfrom : span.start = (utf8 pre ++ lead.flatMap String.utf8EncodeChar).length := by
    simp only [span, Span.ofLine, ← length_utf8, hD, hS, List.length_append]
    omega
  have hto : span.stop = span.start + (utf8 (Text.trim (dropLineEnd line))).length := by
    simp only [span, Span.ofLine, ← length_utf8]
  have htext : pre ++ line ++ post = pre ++ (dropLineEnd line ++ ending) ++ post := by rw [← hline]
  rw [hto, hfrom, toUTF8_eq, toUTF8_eq, extract_toByteArray, Nat.add_sub_cancel_left, htext]
  simp only [utf8_append, hD, List.append_assoc]
  rw [← List.append_assoc (utf8 pre), List.drop_left, List.take_left]

end DeviceConfig

end KernelLaunch
