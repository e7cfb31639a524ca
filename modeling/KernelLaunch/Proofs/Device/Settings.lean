import KernelLaunch.Device.Toml
/-!
# The settings of a device file

A device file sets the fields of a configuration one `key = value` line at a time. Each field is
named by a section and a key (`Setting.key`), and its value text is read one of six ways
(`ValueKind.read`): any text with its surrounding quotes dropped, a word kept whole or cut to
32 bits, `true` or `false`, an array of one to three words padded with ones, or an array of words
cut to 32 bits.

`applySetting` is this table: it succeeds exactly on a recognised section and key whose value
reads, and then sets that field alone (`applySetting_eq_ok_iff`). A field read back after a run
of settings holds the value of the last setting of it, or the value it started with
(`Setting.get_assignAll`).
-/

namespace KernelLaunch

namespace DeviceConfig

/-- How the value text of a setting is read. -/
inductive ValueKind where
  | text
  | word32
  | word
  | flag
  | triple
  | words32
  deriving DecidableEq, Repr

/-- The value a setting gives its field. -/
inductive SettingValue where
  | text (s : String)
  | word (n : Nat)
  | flag (b : Bool)
  | dims (d : Dims3)
  | words (ns : List Nat)
  deriving DecidableEq, Repr

namespace SettingValue

/-! The field a value is stored in has one type; a value of another kind stores a default. Values
read from a file are always of their field's kind (`Setting.get_set_of_read`). -/

def asText : SettingValue → String
  | .text s => s
  | _ => ""

def asWord : SettingValue → Nat
  | .word n => n
  | _ => 0

def asFlag : SettingValue → Bool
  | .flag b => b
  | _ => false

def asDims : SettingValue → Dims3
  | .dims d => d
  | _ => ⟨1, 1, 1⟩

def asWords : SettingValue → List Nat
  | .words ns => ns
  | _ => []

end SettingValue

/-- One to three words as dimensions, padded with ones. -/
def dimsOf? : List Nat → Option Dims3
  | [] => none
  | [x] => some ⟨x, 1, 1⟩
  | [x, y] => some ⟨x, y, 1⟩
  | [x, y, z] => some ⟨x, y, z⟩
  | _ :: _ :: _ :: _ :: _ => none

/-- Reads a value text: a word as `u64` text, a flag as `true` or `false`, an array of one to three
words padded with ones, or any text without its surrounding quotes. -/
def ValueKind.read : ValueKind → String → Option SettingValue
  | .text, v => some (.text (unquote v))
  | .word32, v => (parseWord v).map fun n => .word (Word.low32 n)
  | .word, v => (parseWord v).map .word
  | .flag, v => if v = "true" then some (.flag true) else if v = "false" then some (.flag false) else none
  | .triple, v => (parseWordArray v).bind fun xs => (dimsOf? xs).map .dims
  | .words32, v => (parseWordArray v).map fun xs => .words (xs.map Word.low32)

namespace ValueKind

/-- The values of a kind: each kind has one constructor of `SettingValue`. -/
def Shape : ValueKind → SettingValue → Prop
  | .text, x => x = .text x.asText
  | .word32, x | .word, x => x = .word x.asWord
  | .flag, x => x = .flag x.asFlag
  | .triple, x => x = .dims x.asDims
  | .words32, x => x = .words x.asWords

/-- A value read for a kind is of that kind. -/
theorem shape_of_read {k : ValueKind} {v : String} {x : SettingValue} (h : k.read v = some x) : k.Shape x := by
  cases k <;> simp only [read, Option.map_eq_some_iff, Option.bind_eq_some_iff] at h
  case text => cases h; rfl
  case word32 | word | words32 =>
    obtain ⟨_, -, rfl⟩ := h
    rfl
  case triple =>
    obtain ⟨_, -, _, -, rfl⟩ := h
    rfl
  case flag =>
    split at h
    · cases h; rfl
    · split at h
      · cases h; rfl
      · cases h

/-- The message of a value text a setting of this kind cannot read, for the setting at `path`. -/
def invalid (k : ValueKind) (path v : String) : String :=
  match k with
  | .flag => "invalid " ++ path ++ ": " ++ v ++ " (expected bool)"
  | .triple =>
      if (parseWordArray v).isSome then path ++ " takes 1 to 3 entries" else "invalid " ++ path ++ ": " ++ v
  | _ => "invalid " ++ path ++ ": " ++ v

end ValueKind

/-- The fields a device file may set, one for each recognised section and key. -/
inductive Setting where
  | name
  | displayName
  | addressBits
  | sizeTWidth
  | globalSpace
  | localSpace
  | constantSpace
  | contextSpace
  | argsSpace
  | maxWorkItemDims
  | maxWorkItemSizes
  | maxGridDimWidth
  | argBufferLauncher
  | gridLauncher
  | spmd
  | allocaLocals
  | dynamicLocalSize
  | localSize
  | assumeZeroGlobalOffset
  | deviceSidePrintf
  | subgroupSizes
  deriving DecidableEq, Repr

namespace Setting

/-- The section and the key of a setting. -/
def key : Setting → String × String
  | .name => ("device", "name")
  | .displayName => ("device", "display_name")
  | .addressBits => ("device", "address_bits")
  | .sizeTWidth => ("device", "size_t_width")
  | .globalSpace => ("address_space", "global")
  | .localSpace => ("address_space", "local")
  | .constantSpace => ("address_space", "constant")
  | .contextSpace => ("address_space", "context")
  | .argsSpace => ("address_space", "args")
  | .maxWorkItemDims => ("workitem", "max_dims")
  | .maxWorkItemSizes => ("workitem", "max_sizes")
  | .maxGridDimWidth => ("workitem", "max_grid_dim_width")
  | .argBufferLauncher => ("launcher", "arg_buffer")
  | .gridLauncher => ("launcher", "grid")
  | .spmd => ("launcher", "spmd")
  | .allocaLocals => ("launcher", "alloca_locals")
  | .dynamicLocalSize => ("workgroup", "dynamic_local_size")
  | .localSize => ("workgroup", "local_size")
  | .assumeZeroGlobalOffset => ("workgroup", "assume_zero_global_offset")
  | .deviceSidePrintf => ("printf", "device_side")
  | .subgroupSizes => ("subgroup", "sizes")

/-- The section and key of a setting as messages name it, `section.key`. -/
def path (s : Setting) : String := s.key.1 ++ "." ++ s.key.2

/-- How a setting's value text is read: the names as text, the widths, address spaces and the
number of dimensions as 32-bit words, the grid width as a whole word. -/
def kind : Setting → ValueKind
  | .name | .displayName => .text
  | .addressBits | .sizeTWidth | .globalSpace | .localSpace | .constantSpace | .contextSpace | .argsSpace
  | .maxWorkItemDims => .word32
  | .maxGridDimWidth => .word
  | .argBufferLauncher | .gridLauncher | .spmd | .allocaLocals | .dynamicLocalSize | .assumeZeroGlobalOffset
  | .deviceSidePrintf => .flag
  | .maxWorkItemSizes | .localSize => .triple
  | .subgroupSizes => .words32

/-- The value of a setting's field. -/
def get : Setting → DeviceConfig → SettingValue
  | .name, c => .text c.name
  | .displayName, c => .text c.displayName
  | .addressBits, c => .word c.addressBits
  | .sizeTWidth, c => .word c.sizeTWidth
  | .globalSpace, c => .word c.addressSpaces.globalSpace
  | .localSpace, c => .word c.addressSpaces.localSpace
  | .constantSpace, c => .word c.addressSpaces.constantSpace
  | .contextSpace, c => .word c.addressSpaces.contextSpace
  | .argsSpace, c => .word c.addressSpaces.argsSpace
  | .maxWorkItemDims, c => .word c.maxWorkItemDims
  | .maxWorkItemSizes, c => .dims c.maxWorkItemSizes
  | .maxGridDimWidth, c => .word c.maxGridDimWidth
  | .argBufferLauncher, c => .flag c.argBufferLauncher
  | .gridLauncher, c => .flag c.gridLauncher
  | .spmd, c => .flag c.spmd
  | .allocaLocals, c => .flag c.allocaLocals
  | .dynamicLocalSize, c => .flag c.dynamicLocalSize
  | .localSize, c => .dims c.localSize
  | .assumeZeroGlobalOffset, c => .flag c.assumeZeroGlobalOffset
  | .deviceSidePrintf, c => .flag c.deviceSidePrintf
  | .subgroupSizes, c => .words c.subgroupSizes

/-- The configuration with a setting's field set to a value. -/
def set : Setting → SettingValue → DeviceConfig → DeviceConfig
  | .name, x, c => { c with name := x.asText }
  | .displayName, x, c => { c with displayName := x.asText }
  | .addressBits, x, c => { c with addressBits := x.asWord }
  | .sizeTWidth, x, c => { c with sizeTWidth := x.asWord }
  | .globalSpace, x, c => { c with addressSpaces := { c.addressSpaces with globalSpace := x.asWord } }
  | .localSpace, x, c => { c with addressSpaces := { c.addressSpaces with localSpace := x.asWord } }
  | .constantSpace, x, c => { c with addressSpaces := { c.addressSpaces with constantSpace := x.asWord } }
  | .contextSpace, x, c => { c with addressSpaces := { c.addressSpaces with contextSpace := x.asWord } }
  | .argsSpace, x, c => { c with addressSpaces := { c.addressSpaces with argsSpace := x.asWord } }
  | .maxWorkItemDims, x, c => { c with maxWorkItemDims := x.asWord }
  | .maxWorkItemSizes, x, c => { c with maxWorkItemSizes := x.asDims }
  | .maxGridDimWidth, x, c => { c with maxGridDimWidth := x.asWord }
  | .argBufferLauncher, x, c => { c with argBufferLauncher := x.asFlag }
  | .gridLauncher, x, c => { c with gridLauncher := x.asFlag }
  | .spmd, x, c => { c with spmd := x.asFlag }
  | .allocaLocals, x, c => { c with allocaLocals := x.asFlag }
  | .dynamicLocalSize, x, c => { c with dynamicLocalSize := x.asFlag }
  | .localSize, x, c => { c with localSize := x.asDims }
  | .assumeZeroGlobalOffset, x, c => { c with assumeZeroGlobalOffset := x.asFlag }
  | .deviceSidePrintf, x, c => { c with deviceSidePrintf := x.asFlag }
  | .subgroupSizes, x, c => { c with subgroupSizes := x.asWords }

/-- Setting a field leaves every other field as it was. -/
theorem get_set_of_ne {s s' : Setting} (h : s ≠ s') (x : SettingValue) (c : DeviceConfig) :
    s'.get (s.set x c) = s'.get c := by
  cases s <;> cases s' <;> first | exact absurd rfl h | rfl

/-- A field set to a value read for it holds that value. -/
theorem get_set_of_read {s : Setting} {v : String} {x : SettingValue} (h : s.kind.read v = some x)
    (c : DeviceConfig) : s.get (s.set x c) = x := by
  -- reading a field back gives the stored value in its field's constructor, which is the shape
  cases s <;> exact (ValueKind.shape_of_read h).symm

end Setting

/-- A recognised section and key sets its field to the value its text reads as, or fails with a
message that names the setting and, but for an array of the wrong length, the text. -/
theorem applySetting_key (s : Setting) (c : DeviceConfig) (v : String) :
    applySetting c s.key.1 s.key.2 v = match s.kind.read v with
      | some x => .ok (s.set x c)
      | none => .error (s.kind.invalid s.path v) := by
  -- the match on the section and key picks the branch; what is left is the value's reading
  cases s <;> simp only [applySetting, Setting.key, Setting.kind, Setting.path, ValueKind.read, ValueKind.invalid]
  case name | displayName => rfl
  case maxGridDimWidth | addressBits | sizeTWidth | globalSpace | localSpace | constantSpace | contextSpace | argsSpace
    | maxWorkItemDims => cases parseWord v <;> rfl
  case argBufferLauncher | gridLauncher | spmd | allocaLocals | dynamicLocalSize | assumeZeroGlobalOffset
    | deviceSidePrintf =>
    by_cases h₁ : v = "true" <;> by_cases h₂ : v = "false" <;> simp only [h₁, h₂, ↓reduceIte] <;> rfl
  case maxWorkItemSizes | localSize =>
    rcases parseWordArray v with _ | _ | ⟨x, _ | ⟨y, _ | ⟨z, _ | ⟨w, ws⟩⟩⟩⟩ <;> rfl
  case subgroupSizes => cases parseWordArray v <;> rfl

/-- A section and key that no setting has is rejected, whatever the value. -/
theorem applySetting_unknown {g k : String} (h : ∀ s : Setting, s.key ≠ (g, k)) (c : DeviceConfig) (v : String) :
    applySetting c g k v = .error ("unknown key '" ++ k ++ "' in section [" ++ g ++ "]") := by
  unfold applySetting
  dsimp only
  -- every branch but the last is the key of a setting, which `h` excludes
  split
  case h_22 => rfl
  all_goals first
    | exact absurd rfl (h .name)
    | exact absurd rfl (h .displayName)
    | exact absurd rfl (h .addressBits)
    | exact absurd rfl (h .sizeTWidth)
    | exact absurd rfl (h .globalSpace)
    | exact absurd rfl (h .localSpace)
    | exact absurd rfl (h .constantSpace)
    | exact absurd rfl (h .contextSpace)
    | exact absurd rfl (h .argsSpace)
    | exact absurd rfl (h .maxWorkItemDims)
    | exact absurd rfl (h .maxWorkItemSizes)
    | exact absurd rfl (h .maxGridDimWidth)
    | exact absurd rfl (h .argBufferLauncher)
    | exact absurd rfl (h .gridLauncher)
    | exact absurd rfl (h .spmd)
    | exact absurd rfl (h .allocaLocals)
    | exact absurd rfl (h .dynamicLocalSize)
    | exact absurd rfl (h .localSize)
    | exact absurd rfl (h .assumeZeroGlobalOffset)
    | exact absurd rfl (h .deviceSidePrintf)
    | exact absurd rfl (h .subgroupSizes)

/-- Applying a setting succeeds exactly on a recognised section and key whose value text reads,
and then sets that field to the value read. -/
theorem applySetting_eq_ok_iff {c c' : DeviceConfig} {g k v : String} :
    applySetting c g k v = .ok c' ↔
      ∃ (s : Setting) (x : SettingValue), s.key = (g, k) ∧ s.kind.read v = some x ∧ c' = s.set x c := by
  constructor
  · intro h
    by_cases hk : ∃ s : Setting, s.key = (g, k)
    · obtain ⟨s, hs⟩ := hk
      obtain ⟨rfl, rfl⟩ : g = s.key.1 ∧ k = s.key.2 := by rw [hs]; exact ⟨rfl, rfl⟩
      rw [applySetting_key] at h
      cases hx : s.kind.read v with
      | some x =>
          rw [hx] at h
          cases h
          exact ⟨s, x, rfl, hx, rfl⟩
      | none =>
          rw [hx] at h
          cases h
    · rw [applySetting_unknown (fun s hs => hk ⟨s, hs⟩)] at h
      cases h
  · rintro ⟨s, x, hs, hx, rfl⟩
    obtain ⟨rfl, rfl⟩ : g = s.key.1 ∧ k = s.key.2 := by rw [hs]; exact ⟨rfl, rfl⟩
    rw [applySetting_key, hx]

/-- The configuration a run of settings leaves, each set in turn. -/
def assignAll (c : DeviceConfig) (as : List (Setting × SettingValue)) : DeviceConfig :=
  as.foldl (fun c a => a.1.set a.2 c) c

/-- The value the last of a run of settings gives a field, if one of them sets it. -/
def lastValue (as : List (Setting × SettingValue)) (s : Setting) : Option SettingValue :=
  (as.reverse.find? (·.1 == s)).map (·.2)

theorem lastValue_cons (a : Setting × SettingValue) (as : List (Setting × SettingValue)) (s : Setting) :
    lastValue (a :: as) s = (lastValue as s).or (if a.1 = s then some a.2 else none) := by
  by_cases h : a.1 = s <;> simp [lastValue, List.find?_append, h]

/-- After a run of settings read from value texts, a field holds the value of the last setting of
it, or the value it had before when none sets it. -/
theorem Setting.get_assignAll (s : Setting) (c : DeviceConfig) (as : List (Setting × SettingValue))
    (hread : ∀ a ∈ as, ∃ v, a.1.kind.read v = some a.2) :
    s.get (assignAll c as) = (lastValue as s).getD (s.get c) := by
  induction as generalizing c with
  | nil => rfl
  | cons a as ih =>
      have hrest := ih (a.1.set a.2 c) fun b hb => hread b (List.mem_cons_of_mem _ hb)
      change s.get (assignAll (a.1.set a.2 c) as) = _
      rw [hrest, lastValue_cons]
      cases lastValue as s with
      | some x => rfl
      | none =>
          by_cases h : a.1 = s
          · obtain ⟨v, hv⟩ := hread a List.mem_cons_self
            subst h
            simp [get_set_of_read hv]
          · simp [h, get_set_of_ne h]

end DeviceConfig

end KernelLaunch
