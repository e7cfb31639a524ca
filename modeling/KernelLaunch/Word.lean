/-!
# Words

Sizes, offsets and immediates are 64-bit unsigned words. They are kept as `Nat`
values below `Word.size`, and every operation that can leave that range is
written out: a checked form that answers `none`, a saturating form that stops
at `Word.max`, and a wrapping form that reduces modulo `Word.size`.

Main statements: `alignTo` lands on a multiple of the alignment at or above
the offset whenever it does not saturate, and `checkedAlignTo` agrees with it
exactly when it succeeds.
-/

namespace KernelLaunch

namespace Word

/-- The number of 64-bit words. -/
def size : Nat := 18446744073709551616

/-- The largest 64-bit word. -/
def max : Nat := 18446744073709551615

/-- The number of 32-bit words. -/
def size32 : Nat := 4294967296

/-- The largest 32-bit word. -/
def max32 : Nat := 4294967295

/-- Addition that answers `none` when the sum leaves the word range. -/
def checkedAdd (a b : Nat) : Option Nat :=
  if a + b ≤ max then some (a + b) else none

/-- Multiplication that answers `none` when the product leaves the word range. -/
def checkedMul (a b : Nat) : Option Nat :=
  if a * b ≤ max then some (a * b) else none

/-- Multiplication that stops at the largest word. -/
def saturatingMul (a b : Nat) : Nat := Nat.min (a * b) max

/-- Addition modulo the word size. -/
def wrappingAdd (a b : Nat) : Nat := (a + b) % size

/-- Subtraction modulo the word size. -/
def wrappingSub (a b : Nat) : Nat := (a + size - b % size) % size

/-- Multiplication modulo the word size. -/
def wrappingMul (a b : Nat) : Nat := (a * b) % size

/-- The quotient rounded up: the least `q` with `a ≤ q * b`, for a positive `b`. -/
def divCeil (a b : Nat) : Nat := if a % b = 0 then a / b else a / b + 1

/-- Rounds `offset` up to a multiple of `align`, stopping at the largest word.
The alignment must be positive; callers that take it from input check it. -/
def alignTo (offset align : Nat) : Nat := saturatingMul (divCeil offset align) align

/-- Rounds `offset` up to a multiple of `align`, or `none` when that multiple
leaves the word range. -/
def checkedAlignTo (offset align : Nat) : Option Nat := checkedMul (divCeil offset align) align

/-- Truncation to the low 32 bits. -/
def low32 (n : Nat) : Nat := n % size32

theorem checkedAdd_eq_some {a b c : Nat} : checkedAdd a b = some c ↔ a + b ≤ max ∧ a + b = c := by
  unfold checkedAdd
  by_cases h : a + b ≤ max <;> simp [h]

theorem checkedMul_eq_some {a b c : Nat} : checkedMul a b = some c ↔ a * b ≤ max ∧ a * b = c := by
  unfold checkedMul
  by_cases h : a * b ≤ max <;> simp [h]

theorem le_mul_divCeil (a b : Nat) (hb : 0 < b) : a ≤ divCeil a b * b := by
  unfold divCeil
  have h := Nat.div_add_mod a b
  have hr := Nat.mod_lt a hb
  split
  · rename_i h0
    rw [h0] at h
    rw [Nat.mul_comm]
    omega
  · rw [Nat.add_mul, Nat.one_mul, Nat.mul_comm]
    omega

/-- A checked alignment that succeeds lands on a multiple of the alignment at
or above the offset. -/
theorem checkedAlignTo_spec {offset align r : Nat} (hb : 0 < align)
    (h : checkedAlignTo offset align = some r) : offset ≤ r ∧ r % align = 0 ∧ r ≤ max := by
  unfold checkedAlignTo at h
  rw [checkedMul_eq_some] at h
  obtain ⟨hle, rfl⟩ := h
  exact ⟨le_mul_divCeil offset align hb, Nat.mul_mod_left _ _, hle⟩

/-- Where the checked alignment succeeds, the saturating one gives the same word. -/
theorem alignTo_of_checkedAlignTo {offset align r : Nat}
    (h : checkedAlignTo offset align = some r) : alignTo offset align = r := by
  unfold checkedAlignTo at h
  rw [checkedMul_eq_some] at h
  obtain ⟨hle, rfl⟩ := h
  unfold alignTo saturatingMul
  exact Nat.min_eq_left hle

end Word

end KernelLaunch
