import KernelLaunch.Proofs.Device.Settings
import KernelLaunch.Proofs.Bytes.Words
import KernelLaunch.Proofs.Device.Lines
/-!
# Reading a device file

A device file is read line by line. A line without its surrounding white space is blank or a
`#` comment, a `[section]` header, or a `key = value` entry (`FileLine.of`); anything else is
malformed. A header names the section of the entries after it (`sectionEntries`), and each entry
must be a setting of its section whose value text reads (`Assigns`).

`parseToml_eq_ok_iff` says that a file is read exactly when its lines are well formed and its
entries are such settings, the name they leave is not empty and the configuration they leave
passes `validate`; the configuration is then the host CPU preset with the settings applied in
order and the display name defaulting to the name. So each field holds the value of the last entry
that sets it (`parseToml_fields`), but an empty display name, which gives way to the name. The
reading stops at the first line that does not read, and the span of its error covers exactly that
line without its surrounding white space (`parseToml_eq_error`).
-/

namespace KernelLaunch

namespace DeviceConfig

/-! ## Lines -/

/-- What one line of a device file holds, read from the line without its surrounding white
space. -/
inductive FileLine where
  | blank
  | header (group : String)
  | entry (key value : String)
  | malformed
  deriving DecidableEq

/-- Reads a line: white space or a comment, a `[section]` header, or the key and the value on the
two sides of the first `=`, each without its surrounding white space. -/
def FileLine.of (line : String) : FileLine :=
  let trimmed := Text.trim line
  if trimmed.isEmpty || trimmed.startsWith "#" then .blank
  else if trimmed.startsWith "[" && trimmed.endsWith "]" then
    .header (Text.trim (String.ofList ((trimmed.toList.drop 1).dropLast)))
  else
    match splitAtEquals trimmed with
    | some (key, value) => .entry (Text.trim key) (Text.trim value)
    | none => .malformed

/-- The entries of a run of lines, each with the section it stands in: a header names the section
of the entries after it, up to the next header. -/
def sectionEntries (group : String) : List FileLine → List (String × String × String)
  | [] => []
  | .header g :: ls => sectionEntries g ls
  | .entry k v :: ls => (group, k, v) :: sectionEntries group ls
  | _ :: ls => sectionEntries group ls

/-- An entry, in its section, is a setting whose value text reads as the value. -/
def Assigns (e : String × String × String) (a : Setting × SettingValue) : Prop :=
  a.1.key = (e.1, e.2.1) ∧ a.1.kind.read e.2.2 = some a.2

instance : DecidableRel Assigns := fun _ _ => inferInstanceAs (Decidable (_ ∧ _))

/-- A reading step that succeeds with a configuration, a section and a position. -/
theorem pure_eq_ok_iff_triple {ε α β γ : Type} {a a' : α} {b b' : β} {n n' : γ} :
    (pure (a, b, n) : Except ε (α × β × γ)) = .ok (a', b', n') ↔ n' = n ∧ a' = a ∧ b' = b := by
  rw [except_pure_eq_ok, Prod.mk.injEq, Prod.mk.injEq]
  constructor
  · rintro ⟨rfl, rfl, rfl⟩
    exact ⟨rfl, rfl, rfl⟩
  · rintro ⟨rfl, rfl, rfl⟩
    exact ⟨rfl, rfl, rfl⟩

/-- Reading a line moves past its bytes. A blank line changes nothing else, a header changes the
section, an entry applies its setting in the current section, and a malformed line stops the
reading. -/
theorem readLine_eq_ok {path line group group' : String} {c c' : DeviceConfig} {pos pos' : Nat} :
    readLine path (c, group, pos) line = .ok (c', group', pos') ↔ pos' = pos + line.utf8ByteSize ∧
      match FileLine.of line with
      | .blank => c' = c ∧ group' = group
      | .header g => c' = c ∧ group' = g
      | .entry k v => group' = group ∧ applySetting c group k v = .ok c'
      | .malformed => False := by
  unfold readLine FileLine.of
  dsimp only
  -- the two sides test the trimmed line in the same order, so one split serves both
  split
  · exact pure_eq_ok_iff_triple
  · split
    · exact pure_eq_ok_iff_triple
    · split
      · rename_i heq
        simp only [heq, throw, throwThe, MonadExceptOf.throw, reduceCtorEq, and_false]
      · rename_i key value heq
        simp only [heq]
        cases c.applySetting group (Text.trim key) (Text.trim value) with
        | ok c₁ =>
            rw [pure_eq_ok_iff_triple, Except.ok.injEq]
            constructor
            · rintro ⟨hpos, rfl, hgroup⟩
              exact ⟨hpos, hgroup, rfl⟩
            · rintro ⟨hpos, hgroup, rfl⟩
              exact ⟨hpos, rfl, hgroup⟩
        | error msg => simp only [throw, throwThe, MonadExceptOf.throw, reduceCtorEq, and_false]

/-- Reading a run of lines succeeds exactly when no line is malformed and each entry, in the
section it stands in, is a setting whose value text reads; the reading then ends with those
settings applied in order. -/
theorem foldlM_readLine_eq_ok {path : String} : ∀ (lines : List String) (c : DeviceConfig) (group : String)
    (pos : Nat) (c' : DeviceConfig),
    (∃ group' pos', lines.foldlM (readLine path) (c, group, pos) = .ok (c', group', pos')) ↔
      (∀ l ∈ lines, FileLine.of l ≠ .malformed) ∧
      ∃ as, List.Forall₂ Assigns (sectionEntries group (lines.map FileLine.of)) as ∧ c' = assignAll c as
  | [], c, group, pos, c' => by
      simp only [List.foldlM_nil, except_pure_eq_ok, Prod.mk.injEq, List.not_mem_nil, IsEmpty.forall_iff,
        implies_true, List.map_nil, sectionEntries, List.forall₂_nil_left_iff, exists_eq_left, true_and]
      constructor
      · rintro ⟨_, _, rfl, -, -⟩
        rfl
      · rintro rfl
        exact ⟨group, pos, rfl, rfl, rfl⟩
  | l :: ls, c, group, pos, c' => by
      simp only [List.foldlM_cons, except_bind_eq_ok, List.forall_mem_cons, List.map_cons]
      constructor
      · rintro ⟨group', pos', ⟨c₁, g₁, pos₁⟩, hline, hrest⟩
        obtain ⟨hwell, as, has, rfl⟩ := (foldlM_readLine_eq_ok ls c₁ g₁ pos₁ c').mp ⟨group', pos', hrest⟩
        obtain ⟨-, hl⟩ := readLine_eq_ok.mp hline
        -- the line decides the section and the settings the rest is read with
        split at hl
        · rename_i hof
          obtain ⟨rfl, rfl⟩ := hl
          refine ⟨⟨by simp [hof], hwell⟩, as, ?_, rfl⟩
          simpa only [hof, sectionEntries] using has
        · rename_i g hof
          obtain ⟨rfl, rfl⟩ := hl
          refine ⟨⟨by simp [hof], hwell⟩, as, ?_, rfl⟩
          simpa only [hof, sectionEntries] using has
        · rename_i k v hof
          obtain ⟨rfl, happ⟩ := hl
          obtain ⟨s, x, hkey, hread, rfl⟩ := applySetting_eq_ok_iff.mp happ
          refine ⟨⟨by simp [hof], hwell⟩, (s, x) :: as, ?_, rfl⟩
          rw [hof, sectionEntries]
          exact List.Forall₂.cons ⟨hkey, hread⟩ has
        · exact hl.elim
      · rintro ⟨⟨hl, hwell⟩, as, has, rfl⟩
        -- the line fixes the section and the configuration the rest is read from
        match hof : FileLine.of l with
        | .blank =>
            simp only [hof, sectionEntries] at has
            obtain ⟨group', pos', hrest⟩ := (foldlM_readLine_eq_ok ls c group _ _).mpr ⟨hwell, as, has, rfl⟩
            exact ⟨group', pos', _, readLine_eq_ok.mpr (by rw [hof]; exact ⟨rfl, rfl, rfl⟩), hrest⟩
        | .header g =>
            simp only [hof, sectionEntries] at has
            obtain ⟨group', pos', hrest⟩ := (foldlM_readLine_eq_ok ls c g _ _).mpr ⟨hwell, as, has, rfl⟩
            exact ⟨group', pos', _, readLine_eq_ok.mpr (by rw [hof]; exact ⟨rfl, rfl, rfl⟩), hrest⟩
        | .entry k v =>
            simp only [hof, sectionEntries] at has
            cases has with
            | cons hhead has =>
                rename_i a as
                obtain ⟨group', pos', hrest⟩ :=
                  (foldlM_readLine_eq_ok ls (a.1.set a.2 c) group _ _).mpr ⟨hwell, as, has, rfl⟩
                refine ⟨group', pos', _, readLine_eq_ok.mpr ?_, hrest⟩
                rw [hof]
                exact ⟨rfl, rfl, applySetting_eq_ok_iff.mpr ⟨a.1, a.2, hhead.1, hhead.2, rfl⟩⟩
        | .malformed => exact (hl hof).elim

/-- A fold that fails fails at one element: the elements before it fold, and the step at it
fails. -/
theorem foldlM_eq_error_at {ε σ α : Type} {f : σ → α → Except ε σ} {e : ε} :
    ∀ (xs : List α) (s : σ), xs.foldlM f s = .error e →
      ∃ pre x post t, xs = pre ++ x :: post ∧ pre.foldlM f s = .ok t ∧ f t x = .error e
  | [], s, h => by cases h
  | x :: xs, s, h => by
      rw [List.foldlM_cons] at h
      cases hx : f s x with
      | error e' =>
          rw [hx] at h
          cases h
          exact ⟨[], x, xs, s, rfl, rfl, hx⟩
      | ok t =>
          rw [hx] at h
          obtain ⟨pre, y, post, u, rfl, hpre, hy⟩ := foldlM_eq_error_at xs t h
          refine ⟨x :: pre, y, post, u, rfl, ?_, hy⟩
          rw [List.foldlM_cons, hx]
          exact hpre

/-- A line that stops the reading is malformed, or an entry whose setting fails, and its error
points at the line without its line end. -/
theorem readLine_eq_error {path line group : String} {c : DeviceConfig} {pos : Nat} {d : Diagnostic}
    (h : readLine path (c, group, pos) line = .error d) :
    ∃ msg, d = fileError path (Span.ofLine pos (dropLineEnd line)) msg ∧
      match FileLine.of line with
      | .malformed => msg = "expected 'key = value', found '" ++ Text.trim line ++ "'"
      | .entry k v => applySetting c group k v = .error msg
      | _ => False := by
  unfold readLine at h
  unfold FileLine.of
  dsimp only at h ⊢
  split at h
  · cases h
  · rename_i hblank
    split at h
    · cases h
    · rename_i hheader
      split at h
      · rename_i heq
        cases h
        refine ⟨_, rfl, ?_⟩
        simp only [hblank, hheader, heq, Bool.false_eq_true, ↓reduceIte]
      · rename_i key value heq
        cases happ : c.applySetting group (Text.trim key) (Text.trim value) with
        | ok c' =>
            rw [happ] at h
            cases h
        | error msg =>
            rw [happ] at h
            cases h
            refine ⟨msg, rfl, ?_⟩
            simp only [hblank, hheader, heq, Bool.false_eq_true, ↓reduceIte]
            exact happ

/-- Reading a run of lines moves past their bytes. -/
theorem foldlM_readLine_pos {path : String} : ∀ (lines : List String) (c : DeviceConfig) (group : String)
    (pos : Nat) (r : DeviceConfig × String × Nat), lines.foldlM (readLine path) (c, group, pos) = .ok r →
      r.2.2 = pos + (String.join lines).utf8ByteSize
  | [], c, group, pos, r, h => by
      rw [List.foldlM_nil, except_pure_eq_ok] at h
      subst h
      simp
  | l :: ls, c, group, pos, r, h => by
      rw [List.foldlM_cons, except_bind_eq_ok] at h
      obtain ⟨⟨c₁, g₁, pos₁⟩, hline, hrest⟩ := h
      obtain ⟨hpos, -⟩ := readLine_eq_ok.mp hline
      rw [foldlM_readLine_pos ls c₁ g₁ pos₁ r hrest, hpos, String.join_cons, String.utf8ByteSize_append]
      omega

/-! ## Files -/

/-- The settings a device file holds: its lines are well formed, and its entries, each in the
section it stands in, set fields to the values `as` read from their texts. -/
structure FileSettings (content : String) (as : List (Setting × SettingValue)) : Prop where
  wellFormed : ∀ l ∈ linesWithBreaks content, FileLine.of l ≠ .malformed
  assigns : List.Forall₂ Assigns (sectionEntries "" ((linesWithBreaks content).map FileLine.of)) as

/-- The configuration with an empty display name replaced by the name. -/
def withDisplayName (c : DeviceConfig) : DeviceConfig :=
  if c.displayName.isEmpty then { c with displayName := c.name } else c

/-- The lines of a file are read exactly when the file holds settings, and they leave the host
CPU preset, without its names, with those settings applied in order. -/
theorem foldlM_readLine_file {content path : String} {c : DeviceConfig} :
    (∃ group pos, (linesWithBreaks content).foldlM (readLine path) (fileBase, "", 0) = .ok (c, group, pos)) ↔
      ∃ as, FileSettings content as ∧ c = assignAll fileBase as := by
  rw [foldlM_readLine_eq_ok]
  constructor
  · rintro ⟨hwell, as, has, rfl⟩
    exact ⟨as, ⟨hwell, has⟩, rfl⟩
  · rintro ⟨as, ⟨hwell, has⟩, rfl⟩
    exact ⟨hwell, as, has, rfl⟩

/-- The settings a file holds leave one configuration, whichever reading of them is taken. -/
theorem FileSettings.assignAll_eq {content : String} {as as' : List (Setting × SettingValue)}
    (hs : FileSettings content as) (hs' : FileSettings content as') :
    assignAll fileBase as' = assignAll fileBase as := by
  obtain ⟨g, p, h⟩ := (@foldlM_readLine_file _ "" _).mpr ⟨as, hs, rfl⟩
  obtain ⟨g', p', h'⟩ := (@foldlM_readLine_file _ "" _).mpr ⟨as', hs', rfl⟩
  rw [h, Except.ok.injEq, Prod.mk.injEq] at h'
  exact h'.1.symm

/-- Each value a file's settings give is read from a value text. -/
theorem FileSettings.reads {content : String} {as : List (Setting × SettingValue)} (hs : FileSettings content as) :
    ∀ a ∈ as, ∃ v, a.1.kind.read v = some a.2 := by
  have hall := hs.assigns
  clear hs
  generalize sectionEntries "" _ = es at hall
  induction hall with
  | nil => simp
  | cons hhead _ ih =>
      intro a ha
      rcases List.mem_cons.mp ha with rfl | ha
      · exact ⟨_, hhead.2⟩
      · exact ih a ha

/-- A device file is read exactly when it holds settings that leave a non-empty name and a
configuration that passes `validate` once the display name defaults to the name; the file then
reads as that configuration. -/
theorem parseToml_eq_ok_iff {content path : String} {c : DeviceConfig} :
    parseToml content path = .ok c ↔ ∃ as, FileSettings content as ∧ (assignAll fileBase as).name ≠ "" ∧
      c = withDisplayName (assignAll fileBase as) ∧ c.validate = none := by
  unfold parseToml
  cases hfold : (linesWithBreaks content).foldlM (readLine path) (fileBase, "", 0) with
  | error d =>
      -- a file that holds settings is read, so this one holds none
      have hnone : ¬∃ as, FileSettings content as := by
        rintro ⟨as, hs⟩
        obtain ⟨group, pos, h⟩ := foldlM_readLine_file.mpr ⟨as, hs, rfl⟩
        rw [hfold] at h
        cases h
      constructor
      · intro h
        cases h
      · rintro ⟨as, hs, -⟩
        exact (hnone ⟨as, hs⟩).elim
  | ok r =>
      obtain ⟨c₀, group, pos⟩ := r
      obtain ⟨as, hs, rfl⟩ := foldlM_readLine_file.mp ⟨group, pos, hfold⟩
      -- every reading of the file's settings leaves the configuration the lines were read as
      have hsame : ∀ as', FileSettings content as' → assignAll fileBase as' = assignAll fileBase as :=
        fun _ hs' => hs.assignAll_eq hs'
      have hrhs : (∃ as', FileSettings content as' ∧ (assignAll fileBase as').name ≠ "" ∧
          c = withDisplayName (assignAll fileBase as') ∧ c.validate = none) ↔
          (assignAll fileBase as).name ≠ "" ∧ c = withDisplayName (assignAll fileBase as) ∧ c.validate = none := by
        constructor
        · rintro ⟨as', hs', h⟩
          rwa [hsame as' hs'] at h
        · intro h
          exact ⟨as, hs, h⟩
      rw [hrhs]
      simp only [bind, Except.bind]
      by_cases hname : (assignAll fileBase as).name.isEmpty = true
      · -- a file that names no device is refused
        rw [if_pos hname]
        simp only [throw, throwThe, MonadExceptOf.throw, reduceCtorEq, false_iff, not_and]
        exact fun hne => (hne (String.isEmpty_iff.mp hname)).elim
      · rw [if_neg hname]
        have hne : (assignAll fileBase as).name ≠ "" := fun h => hname (String.isEmpty_iff.mpr h)
        -- the configuration, its display name defaulted, is checked last
        split
        · rename_i msg hv
          have hinvalid : (withDisplayName (assignAll fileBase as)).validate = some msg := hv
          simp only [throw, throwThe, MonadExceptOf.throw, reduceCtorEq, false_iff, not_and]
          rintro - rfl
          rw [hinvalid]
          exact Option.some_ne_none msg
        · rename_i hv
          have hvalid : (withDisplayName (assignAll fileBase as)).validate = none := hv
          rw [except_pure_eq_ok]
          constructor
          · rintro rfl
            exact ⟨hne, rfl, hvalid⟩
          · rintro ⟨-, rfl, -⟩
            rfl

/-! ## Fields -/

/-- The text a run of settings leaves a name field with: the last one set, or the empty text. -/
def lastText (as : List (Setting × SettingValue)) (s : Setting) : String :=
  ((lastValue as s).map SettingValue.asText).getD ""

namespace Setting

/-- The host CPU preset without its names has the preset's other fields. -/
theorem get_fileBase {s : Setting} (hname : s ≠ .name) (hdisplay : s ≠ .displayName) :
    s.get fileBase = s.get cpu := by
  cases s <;> first | exact absurd rfl hname | exact absurd rfl hdisplay | rfl

/-- Defaulting the display name changes no other field. -/
theorem get_withDisplayName {s : Setting} (hdisplay : s ≠ .displayName) (c : DeviceConfig) :
    s.get (withDisplayName c) = s.get c := by
  unfold withDisplayName
  split
  · cases s <;> first | exact absurd rfl hdisplay | rfl
  · rfl

end Setting

/-- The text of a field read back after a run of settings: the last text set for it, or the
text it had before. -/
theorem Setting.asText_get_assignAll (s : Setting) (c : DeviceConfig) (as : List (Setting × SettingValue))
    (hread : ∀ a ∈ as, ∃ v, a.1.kind.read v = some a.2) :
    (s.get (assignAll c as)).asText = ((lastValue as s).map SettingValue.asText).getD (s.get c).asText := by
  rw [Setting.get_assignAll s c as hread]
  cases lastValue as s <;> rfl

/-- A name field of the configuration a file's settings leave holds the last text set for it, or
the empty text. -/
theorem text_assignAll {content : String} {as : List (Setting × SettingValue)} (hs : FileSettings content as) :
    (assignAll fileBase as).name = lastText as .name ∧
      (assignAll fileBase as).displayName = lastText as .displayName :=
  ⟨Setting.asText_get_assignAll .name fileBase as hs.reads,
    Setting.asText_get_assignAll .displayName fileBase as hs.reads⟩

/-- The configuration a file reads as: every field but the names holds the value of the last entry
that sets it, or the host CPU preset's value; the name is the last name set, and the display name
the last display name set unless that is empty, in which case it is the name. -/
theorem parseToml_fields {content path : String} {c : DeviceConfig} {as : List (Setting × SettingValue)}
    (h : parseToml content path = .ok c) (hs : FileSettings content as) :
    (∀ s : Setting, s ≠ .name → s ≠ .displayName → s.get c = (lastValue as s).getD (s.get cpu)) ∧
    c.name = lastText as .name ∧
    c.displayName = if lastText as .displayName = "" then lastText as .name else lastText as .displayName := by
  obtain ⟨as', hs', -, hc, -⟩ := parseToml_eq_ok_iff.mp h
  rw [hs.assignAll_eq hs'] at hc
  subst hc
  obtain ⟨hname, hdisplay⟩ := text_assignAll hs
  refine ⟨?_, ?_, ?_⟩
  · intro s hsname hsdisplay
    rw [Setting.get_withDisplayName hsdisplay, Setting.get_assignAll s fileBase as hs.reads,
      Setting.get_fileBase hsname hsdisplay]
  · unfold withDisplayName
    split <;> exact hname
  · unfold withDisplayName
    by_cases hempty : lastText as .displayName = ""
    · simp [hdisplay, hempty, hname]
    · simp [hdisplay, hempty]

/-- An error of a device file comes either after all its lines were read, and points nowhere, or
from the first line that does not read, and then its span covers exactly the bytes of that line
without its surrounding white space, where the line stands in the text. -/
theorem parseToml_eq_error {content path : String} {d : Diagnostic} (h : parseToml content path = .error d) :
    ((∃ r, (linesWithBreaks content).foldlM (readLine path) (fileBase, "", 0) = .ok r) ∧ d.span = Span.dummy) ∨
    ∃ pre line post, linesWithBreaks content = pre ++ line :: post ∧
      (∃ r, pre.foldlM (readLine path) (fileBase, "", 0) = .ok r ∧ readLine path r line = .error d) ∧
      content.toUTF8.extract d.span.start d.span.stop = (Text.trim line).toUTF8 := by
  unfold parseToml at h
  cases hfold : (linesWithBreaks content).foldlM (readLine path) (fileBase, "", 0) with
  | error e =>
      rw [hfold] at h
      cases h
      right
      obtain ⟨pre, line, post, ⟨c, group, pos⟩, hlines, hpre, hline⟩ := foldlM_eq_error_at _ _ hfold
      obtain ⟨msg, rfl, -⟩ := readLine_eq_error hline
      refine ⟨pre, line, post, hlines, ⟨_, hpre, hline⟩, ?_⟩
      -- the line starts after the bytes of the lines before it
      have hpos : pos = (String.join pre).utf8ByteSize := by
        simpa using foldlM_readLine_pos pre fileBase "" 0 _ hpre
      have htext : content = String.join pre ++ line ++ String.join post := by
        conv_lhs => rw [← join_linesWithBreaks content, hlines]
        rw [String.join_append, String.join_cons, String.append_assoc]
      rw [htext, hpos]
      exact extract_ofLine _ _ _
  | ok r =>
      left
      refine ⟨⟨r, rfl⟩, ?_⟩
      obtain ⟨c, group, pos⟩ := r
      rw [hfold] at h
      simp only [bind, Except.bind] at h
      -- the checks after the lines fail with no place to point at
      split at h
      · cases h
        rfl
      · split at h
        · cases h
          rfl
        · cases h

/-! ## Reading a device file -/

end DeviceConfig

end KernelLaunch
