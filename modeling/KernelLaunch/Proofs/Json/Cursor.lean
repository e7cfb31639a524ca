import KernelLaunch.Json.Reader
import Mathlib
/-!
# Reading from a place in a text

The reader decodes the bytes of a text from a cursor. To say what a decoder reads we fix the
bytes `l` and a byte index `i`, and describe the bytes from `i` on as `l.drop i`: a decoder reads
the bytes `t` as the value `a` when, started where `t` begins after some blanks, it gives `a` and
stops right after `t` (`Reads`). The bytes before `i` and after `t` are left free, so one lemma
serves every place a value stands in a larger text; what follows `t` is only asked to end a
number (`Delimits`).

This module gives that notion and the steps the decoders are made of, each on a cursor of that
shape: looking at and moving past a byte, skipping blanks, and the combinators that wrap a
decoder.
-/

namespace KernelLaunch

namespace Reader

/-! ## Texts as bytes -/

/-- The bytes of a text, character by character. -/
def utf8 (s : String) : List UInt8 := s.toList.flatMap String.utf8EncodeChar

theorem toUTF8_eq (s : String) : s.toUTF8 = (utf8 s).toByteArray := by
  rw [String.toUTF8_eq_toByteArray, ← String.utf8Encode_toList]
  rfl

@[simp] theorem utf8_append (s t : String) : utf8 (s ++ t) = utf8 s ++ utf8 t := by
  simp [utf8, String.toList_append]

theorem getElem?_toByteArray (l : List UInt8) (i : Nat) : l.toByteArray[i]? = l[i]? := by
  by_cases h : i < l.length
  · rw [getElem?_pos l.toByteArray i (by simpa [List.size_toByteArray] using h), List.getElem?_eq_getElem h,
      List.getElem_toByteArray]
  · rw [getElem?_neg l.toByteArray i (by simpa [List.size_toByteArray] using h),
      List.getElem?_eq_none (by omega)]

/-! ## Positions in a list of bytes -/

section Drop

variable {l xs r : List UInt8} {i : Nat}

/-- Moving past the first bytes of what follows a position. -/
theorem drop_shift (h : l.drop i = xs ++ r) : l.drop (i + xs.length) = r := by
  rw [← List.drop_drop, h, List.drop_left]

/-- Moving past the bytes `xs`, to a position given by any expression equal to the one after them. -/
theorem drop_shift_eq {xs r : List UInt8} {j : Nat} (h : l.drop i = xs ++ r) (hj : j = i + xs.length) :
    l.drop j = r := hj ▸ drop_shift h

/-- Moving past the first byte of what follows a position. -/
theorem drop_succ {b : UInt8} (h : l.drop i = b :: r) : l.drop (i + 1) = r := @drop_shift l [b] r i h

theorem getElem?_of_drop {b : UInt8} (h : l.drop i = b :: r) : l[i]? = some b := by
  have := congrArg (·[0]?) h
  simpa using this

theorem getElem?_of_drop_nil (h : l.drop i = []) : l[i]? = none := by
  have := congrArg (·[0]?) h
  simpa using this

theorem getElem?_of_drop_append (h : l.drop i = xs ++ r) {k : Nat} (hk : k < xs.length) : l[i + k]? = xs[k]? := by
  rw [← List.getElem?_drop, h, List.getElem?_append_left hk]

end Drop

/-! ## Cursors over a list of bytes -/

/-- A cursor over the bytes `l` at the byte `i`, with `depth` levels of nesting left, on a text
(not on an already parsed document). -/
def Cursor.at (l : List UInt8) (i depth : Nat) : Cursor := ⟨l.toByteArray, i, depth, false⟩

variable {α β : Type} {l : List UInt8} {i depth : Nat}

theorem bind_ok {x : Decoder α} {f : α → Decoder β} {c c' : Cursor} {a : α} (h : x c = .ok a c') :
    (x >>= f) c = f a c' := by
  show EStateM.bind x f c = _
  simp [EStateM.bind, h]

theorem pure_at (a : α) (c : Cursor) : (pure a : Decoder α) c = .ok a c := rfl

theorem map_ok {x : Decoder α} {f : α → β} {c c' : Cursor} {a : α} (h : x c = .ok a c') :
    (f <$> x) c = .ok (f a) c' := by
  show EStateM.map f x c = _
  simp [EStateM.map, h]

theorem peek_at : peek (Cursor.at l i depth) = .ok l[i]? (Cursor.at l i depth) := by
  simp [peek, Cursor.at, getElem?_toByteArray, get, getThe, MonadStateOf.get, EStateM.get, pure,
    EStateM.pure, bind, EStateM.bind]

theorem eat_at : eat (Cursor.at l i depth) = .ok () (Cursor.at l (i + 1) depth) := by
  simp [eat, Cursor.at, modify, modifyGet, MonadStateOf.modifyGet, EStateM.modifyGet]

theorem peekOrNull_at : peekOrNull (Cursor.at l i depth) = .ok (l[i]?.getD 0) (Cursor.at l i depth) := by
  unfold peekOrNull
  rw [bind_ok peek_at]
  rfl

theorem next_at {b : UInt8} (h : l[i]? = some b) :
    next (Cursor.at l i depth) = .ok (some b) (Cursor.at l (i + 1) depth) := by
  unfold next
  rw [bind_ok peek_at, h]
  simp only [Option.isSome_some, if_true]
  rw [bind_ok eat_at]
  rfl

theorem nextOrNull_at {b : UInt8} (h : l[i]? = some b) :
    nextOrNull (Cursor.at l i depth) = .ok b (Cursor.at l (i + 1) depth) := by
  unfold nextOrNull
  rw [bind_ok (next_at h)]
  rfl

theorem budget_at : budget (Cursor.at l i depth) = .ok (l.length - i + 2) (Cursor.at l i depth) := by
  simp [budget, Cursor.at, List.size_toByteArray, get, getThe, MonadStateOf.get, EStateM.get, pure,
    EStateM.pure, bind, EStateM.bind]

theorem get_at : (get : Decoder Cursor) (Cursor.at l i depth) = .ok (Cursor.at l i depth) (Cursor.at l i depth) := rfl

/-! ## Combinators around a decoder -/

theorem fixed_ok {d : Decoder α} {c c' : Cursor} {a : α} (h : d c = .ok a c') : fixed d c = .ok a c' := by
  simp [fixed, h]

theorem attempt_ok {d : Decoder α} {c c' : Cursor} {a : α} (h : d c = .ok a c') :
    attempt d c = .ok (.ok a) c' := by
  simp [attempt, h]

theorem closing_ok {body : Decoder α} {close : Decoder Unit} {c c' c'' : Cursor} {a : α}
    (hb : body c = .ok a c') (hc : close c' = .ok () c'') : closing body close c = .ok a c'' := by
  unfold closing
  rw [bind_ok (attempt_ok hb), bind_ok (attempt_ok hc)]
  rfl

/-! ## Blanks -/

/-- Bytes that are all JSON white space. -/
def Blank (ws : List UInt8) : Prop := ∀ b ∈ ws, Text.isJsonBlank b = true

theorem Blank.nil : Blank [] := fun _ h => absurd h List.not_mem_nil

theorem Blank.append {ws ws' : List UInt8} (h : Blank ws) (h' : Blank ws') : Blank (ws ++ ws') := by
  intro b hb
  rcases List.mem_append.mp hb with hb | hb
  · exact h b hb
  · exact h' b hb

/-- Bytes that start with no blank. -/
def StartsSolid (r : List UInt8) : Prop := ∀ b ∈ r.head?, Text.isJsonBlank b = false

theorem skipBlanksFrom_drop {ws r : List UInt8} (hws : Blank ws) (hr : StartsSolid r) :
    ∀ {i : Nat}, l.drop i = ws ++ r → skipBlanksFrom l.toByteArray i = i + ws.length := by
  induction ws with
  | nil =>
      intro i h
      rw [skipBlanksFrom]
      split
      · rename_i hi
        have hb := getElem?_toByteArray l i
        rw [getElem?_pos l.toByteArray i hi] at hb
        cases r with
        | nil => simp [getElem?_of_drop_nil h] at hb
        | cons b r =>
            rw [getElem?_of_drop h, Option.some.injEq] at hb
            rw [hb, hr b rfl]
            simp
      · simp
  | cons w ws ih =>
      intro i h
      have hi : l[i]? = some w := getElem?_of_drop h
      have hlt : i < l.toByteArray.size := by
        rw [List.size_toByteArray]
        exact (List.getElem?_eq_some_iff.mp hi).1
      rw [skipBlanksFrom, dif_pos hlt]
      have hb : l.toByteArray[i] = w := by
        have := getElem?_toByteArray l i
        rw [getElem?_pos l.toByteArray i hlt, hi, Option.some.injEq] at this
        exact this
      have h' : l.drop (i + 1) = ws ++ r := @drop_shift l [w] (ws ++ r) i h
      rw [hb, if_pos (hws w List.mem_cons_self), ih (fun b hb => hws b (List.mem_cons_of_mem _ hb)) h']
      simp only [List.length_cons]
      omega

/-- Skipping blanks moves past them and looks at the byte after. -/
theorem blanks_at {ws r : List UInt8} (h : l.drop i = ws ++ r) (hws : Blank ws) (hr : StartsSolid r) :
    blanks (Cursor.at l i depth) = .ok r.head? (Cursor.at l (i + ws.length) depth) := by
  have hskip := skipBlanksFrom_drop hws hr h
  have hget : l[i + ws.length]? = r.head? := by
    rw [← List.head?_drop, drop_shift h]
  simp [blanks, Cursor.at, hskip, getElem?_toByteArray, hget, get, getThe, MonadStateOf.get, EStateM.get,
    set, MonadStateOf.set, EStateM.set, pure, EStateM.pure, bind, EStateM.bind]

/-- The start of a value: blanks skipped, the byte after them looked at. -/
theorem valueStart_at {ws r : List UInt8} {b : UInt8} (h : l.drop i = ws ++ b :: r) (hws : Blank ws)
    (hb : Text.isJsonBlank b = false) :
    valueStart (Cursor.at l i depth) = .ok b (Cursor.at l (i + ws.length) depth) := by
  unfold valueStart
  rw [bind_ok (blanks_at h hws (fun b' hb' => by cases hb'; exact hb))]
  rfl

/-! ## What a decoder reads -/

/-- What may follow a value in the texts read here: nothing, a comma or a line break. None of
them continues a number. -/
def Delimits (post : List UInt8) : Prop := post.head? = none ∨ post.head? = some 44 ∨ post.head? = some 10

/-- The decoder `d` reads the bytes `t` as `a`: started where `t` begins, after blanks, with more
than `need` levels of nesting left and before a delimiter, it gives `a` and stops right after
`t`, with the nesting allowance it had. -/
def Reads (d : Decoder α) (t : List UInt8) (a : α) (need : Nat) : Prop :=
  ∀ (l : List UInt8) (i depth : Nat) (ws post : List UInt8), l.drop i = ws ++ t ++ post → Blank ws →
    Delimits post → need < depth → d (Cursor.at l i depth) = .ok a (Cursor.at l (i + ws.length + t.length) depth)

/-- A decoder that reads `t`, started right where `t` begins. -/
theorem Reads.start {d : Decoder α} {t : List UInt8} {a : α} {need : Nat} (h : Reads d t a need)
    {post : List UInt8} (hl : l.drop i = t ++ post) (hpost : Delimits post) (hd : need < depth) :
    d (Cursor.at l i depth) = .ok a (Cursor.at l (i + t.length) depth) := by
  have := h l i depth [] post (by simpa using hl) Blank.nil hpost hd
  simpa using this

theorem Reads.mono {d : Decoder α} {t : List UInt8} {a : α} {need need' : Nat} (h : Reads d t a need)
    (hle : need ≤ need') : Reads d t a need' :=
  fun l i depth ws post hl hws hpost hd => h l i depth ws post hl hws hpost (by omega)

end Reader

end KernelLaunch
