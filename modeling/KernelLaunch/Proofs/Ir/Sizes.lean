import KernelLaunch.Proofs.Layout.Rules
import KernelLaunch.Kernel.Pass
/-!
# Exact sizes of types

A type's size is computed in words: each array's total and each step of a structure's placement is
checked, and the first one past the word range makes the whole size `none`. The same rules over
unbounded numbers give the exact size (`Ty.exactSize`), and `Ty.sizeFits` says whether every step of
the checked computation stays in the word range.

The checked size is the exact size exactly when the type fits (`checkedSize_eq_some_iff`), the
exact size is always a multiple of the alignment (`exactSize_mod_align`), and the saturating size
is the exact size or the largest word (`size_eq`). A type can fail to fit while its exact size is
small: an empty array of an element too large for a word has exact size zero, yet its checked size
is `none`. When no array is empty, a type fits exactly when its exact size is a word
(`sizeFits_iff_exactSize_le`). A parameter is rejected for its size exactly when it is an aggregate
passed by value that does not fit (`paramProblem_eq_size_iff`). `checkedSize_agrees_with_exactSize`
gathers these.
-/

namespace KernelLaunch

namespace Ty

mutual
/-- The exact size over unbounded numbers, by the rules of `checkedSize`: an array is its length
times its element's size, and a structure's fields are placed each at the next multiple of its
alignment, the end rounded up to the structure's alignment. -/
def exactSize (p : Nat) : Ty → Nat
  | .array e n => exactSize p e * n
  | .struct fs => Word.roundUp (exactEnd p fs 0) (alignFields p fs)
  | t => scalarSize p t

/-- The end offset after placing the fields exactly, one after another from `offset`. -/
def exactEnd (p : Nat) : List Ty → Nat → Nat
  | [], offset => offset
  | f :: fs, offset => exactEnd p fs (Word.roundUp offset (align p f) + exactSize p f)
end

mutual
/-- Whether every step of the checked size computation stays in the word range: each array's
total, each field's placement and each structure's rounded end. Scalars always fit. -/
def sizeFits (p : Nat) : Ty → Bool
  | .array e n => sizeFits p e && decide (exactSize p e * n ≤ Word.max)
  | .struct fs => placeFits p fs 0 && decide (Word.roundUp (exactEnd p fs 0) (alignFields p fs) ≤ Word.max)
  | _ => true

/-- Whether placing the fields from `offset` stays in the word range at every field. -/
def placeFits (p : Nat) : List Ty → Nat → Bool
  | [], _ => true
  | f :: fs, offset =>
      decide (Word.roundUp offset (align p f) + exactSize p f ≤ Word.max) && sizeFits p f &&
        placeFits p fs (Word.roundUp offset (align p f) + exactSize p f)
end

mutual
/-- Whether every array in the type has at least one element. -/
def nonEmptyArrays : Ty → Bool
  | .array e n => n != 0 && nonEmptyArrays e
  | .struct fs => nonEmptyFields fs
  | _ => true

/-- Whether every array in the fields has at least one element. -/
def nonEmptyFields : List Ty → Bool
  | [] => true
  | f :: fs => nonEmptyArrays f && nonEmptyFields fs
end

variable (p : Nat)

/-! ## The checked size is the exact size of a type that fits -/

mutual
theorem checkedSize_eq_some_iff : ∀ (t : Ty) {n : Nat}, checkedSize p t = some n ↔ t.sizeFits p = true ∧ n = t.exactSize p
  | .array e c, n => by
      simp only [checkedSize, sizeFits, exactSize, Option.bind_eq_some_iff, checkedSize_eq_some_iff e,
        Word.checkedMul_eq_some, Bool.and_eq_true, decide_eq_true_eq]
      constructor
      · rintro ⟨s, ⟨hfit, rfl⟩, hle, rfl⟩
        exact ⟨⟨hfit, hle⟩, rfl⟩
      · rintro ⟨⟨hfit, hle⟩, rfl⟩
        exact ⟨_, ⟨hfit, rfl⟩, hle, rfl⟩
  | .struct fs, n => by
      simp only [checkedSize, sizeFits, exactSize, Option.bind_eq_some_iff, placeFields_eq_some_iff fs,
        Word.checkedAlignTo_eq_some_iff (one_le_alignFields p fs), Bool.and_eq_true, decide_eq_true_eq]
      constructor
      · rintro ⟨e, ⟨hfit, rfl⟩, rfl, hle⟩
        exact ⟨⟨hfit, hle⟩, rfl⟩
      · rintro ⟨⟨hfit, hle⟩, rfl⟩
        exact ⟨_, ⟨hfit, rfl⟩, rfl, hle⟩
  | .i8, _ | .i16, _ | .i32, _ | .i64, _ | .f16, _ | .f32, _ | .f64, _ | .ptr _, _ => by
      simp [checkedSize, sizeFits, exactSize, eq_comm]

theorem placeFields_eq_some_iff : ∀ (fs : List Ty) {offset n : Nat},
    placeFields p fs offset = some n ↔ placeFits p fs offset = true ∧ n = exactEnd p fs offset
  | [], offset, n => by
      simp [placeFields, placeFits, exactEnd, eq_comm]
  | f :: fs, offset, n => by
      simp only [placeFields, placeFits, exactEnd, Option.bind_eq_some_iff,
        Word.checkedAlignTo_eq_some_iff (one_le_align p f), checkedSize_eq_some_iff f, Word.checkedAdd_eq_some,
        placeFields_eq_some_iff fs, Bool.and_eq_true, decide_eq_true_eq]
      constructor
      · rintro ⟨start, ⟨rfl, -⟩, s, ⟨hf, rfl⟩, next, ⟨hle, rfl⟩, hrest, rfl⟩
        exact ⟨⟨⟨hle, hf⟩, hrest⟩, rfl⟩
      · rintro ⟨⟨⟨hle, hf⟩, hrest⟩, rfl⟩
        exact ⟨_, ⟨rfl, by omega⟩, _, ⟨hf, rfl⟩, _, ⟨hle, rfl⟩, hrest, rfl⟩
end

/-- The checked size is missing exactly when the type does not fit. -/
theorem checkedSize_eq_none_iff (t : Ty) : checkedSize p t = none ↔ t.sizeFits p = false := by
  cases h : checkedSize p t with
  | none =>
      refine ⟨fun _ => ?_, fun _ => rfl⟩
      cases hfit : t.sizeFits p
      · rfl
      · exact absurd ((checkedSize_eq_some_iff p t).mpr ⟨hfit, rfl⟩) (by rw [h]; simp)
  | some n =>
      rw [((checkedSize_eq_some_iff p t).mp h).1]
      simp

/-- The saturating size is the exact size of a type that fits, and the largest word otherwise. -/
theorem size_eq (t : Ty) : t.size p = if t.sizeFits p then t.exactSize p else Word.max := by
  unfold size
  cases hfit : t.sizeFits p
  · rw [(checkedSize_eq_none_iff p t).mpr hfit]
    rfl
  · rw [(checkedSize_eq_some_iff p t).mpr ⟨hfit, rfl⟩]
    rfl

/-! ## Alignment -/

theorem mod_max_one (n : Nat) : n % Nat.max n 1 = 0 := by
  rcases Nat.eq_zero_or_pos n with rfl | hn
  · rfl
  · rw [show Nat.max n 1 = n from Nat.max_eq_left hn, Nat.mod_self]

/-- The exact size of every type is a multiple of its alignment: an array repeats its element, a
structure is rounded up to its alignment, and a scalar is aligned to its size. -/
theorem exactSize_mod_align : ∀ t : Ty, t.exactSize p % t.align p = 0
  | .array e c => by
      simp only [exactSize, align]
      exact Nat.mod_eq_zero_of_dvd (Dvd.dvd.mul_right (Nat.dvd_of_mod_eq_zero (exactSize_mod_align e)) c)
  | .struct fs => Word.roundUp_mod _ _
  | .i8 | .i16 | .i32 | .i64 | .f16 | .f32 | .f64 | .ptr _ => mod_max_one _

/-! ## When the exact size decides whether a type fits -/

/-- Placing fields never moves the offset back. -/
theorem le_exactEnd : ∀ (fs : List Ty) (offset : Nat), offset ≤ exactEnd p fs offset
  | [], _ => le_rfl
  | f :: fs, offset => by
      have hstart := Word.le_roundUp offset (one_le_align p f)
      have hrest := le_exactEnd fs (Word.roundUp offset (align p f) + exactSize p f)
      simp only [exactEnd]
      omega

/-- A type that fits has a word for its exact size, when a pointer's width is a word. -/
theorem exactSize_le_of_sizeFits (hp : p ≤ Word.max) {t : Ty} (h : t.sizeFits p = true) : t.exactSize p ≤ Word.max := by
  cases t with
  | array e c =>
      simp only [sizeFits, Bool.and_eq_true, decide_eq_true_eq] at h
      exact h.2
  | struct fs =>
      simp only [sizeFits, Bool.and_eq_true, decide_eq_true_eq] at h
      exact h.2
  | ptr s => exact hp
  | i8 | i16 | i32 | i64 | f16 | f32 | f64 => simp [exactSize, scalarSize, Word.max]

mutual
/-- With no empty array, every step of the computation is at most the exact size, so a type whose
exact size is a word fits. -/
theorem sizeFits_of_exactSize_le : ∀ (t : Ty), t.nonEmptyArrays = true → t.exactSize p ≤ Word.max → t.sizeFits p = true
  | .array e c, hne, hle => by
      simp only [nonEmptyArrays, Bool.and_eq_true, bne_iff_ne] at hne
      simp only [exactSize] at hle
      have hmul : exactSize p e ≤ exactSize p e * c := Nat.le_mul_of_pos_right _ (Nat.pos_of_ne_zero hne.1)
      simp only [sizeFits, Bool.and_eq_true, decide_eq_true_eq]
      exact ⟨sizeFits_of_exactSize_le e hne.2 (by omega), hle⟩
  | .struct fs, hne, hle => by
      simp only [nonEmptyArrays] at hne
      simp only [exactSize] at hle
      have hend := Word.le_roundUp (exactEnd p fs 0) (one_le_alignFields p fs)
      simp only [sizeFits, Bool.and_eq_true, decide_eq_true_eq]
      exact ⟨placeFits_of_exactEnd_le fs 0 hne (by omega), hle⟩
  | .i8, _, _ | .i16, _, _ | .i32, _, _ | .i64, _, _ | .f16, _, _ | .f32, _, _ | .f64, _, _ | .ptr _, _, _ => rfl

theorem placeFits_of_exactEnd_le : ∀ (fs : List Ty) (offset : Nat), nonEmptyFields fs = true →
    exactEnd p fs offset ≤ Word.max → placeFits p fs offset = true
  | [], _, _, _ => rfl
  | f :: fs, offset, hne, hle => by
      simp only [nonEmptyFields, Bool.and_eq_true] at hne
      simp only [exactEnd] at hle
      have hrest := le_exactEnd p fs (Word.roundUp offset (align p f) + exactSize p f)
      have hstart := Word.le_roundUp offset (one_le_align p f)
      simp only [placeFits, Bool.and_eq_true, decide_eq_true_eq]
      exact ⟨⟨by omega, sizeFits_of_exactSize_le f hne.1 (by omega)⟩, placeFits_of_exactEnd_le fs _ hne.2 hle⟩
end

/-- When no array is empty and a pointer's width is a word, a type fits exactly when its exact
size is a word. -/
theorem sizeFits_iff_exactSize_le (hp : p ≤ Word.max) {t : Ty} (hne : t.nonEmptyArrays = true) :
    t.sizeFits p = true ↔ t.exactSize p ≤ Word.max :=
  ⟨exactSize_le_of_sizeFits p hp, sizeFits_of_exactSize_le p t hne⟩

/-- Only an aggregate can fail to fit. -/
theorem sizeFits_of_isAggregate_eq_false {t : Ty} (h : t.isAggregate = false) : t.sizeFits p = true := by
  cases t <;> simp_all [isAggregate, sizeFits]

end Ty

/-! ## Parameters too large for a word -/

namespace Pass

variable {c : DeviceConfig} {q : Param}

/-- The message about a size starts with the type; the other problems start with something else. -/
theorem ne_sizeMessage {a b : String} (ha : a.toList.head? ≠ some 'h') :
    some a ≠ some ("has type " ++ b ++ " whose size does not fit in 64 bits") := by
  intro h
  apply ha
  rw [Option.some.injEq] at h
  rw [h, String.toList_append, String.toList_append]
  simp

/-- The checks every parameter goes through reject it for its size exactly when it is an aggregate
passed by value that does not fit. -/
theorem paramProblem_rest_eq_size_iff :
    paramProblem.rest c q = some ("has type " ++ q.ty.render ++ " whose size does not fit in 64 bits") ↔
      q.ty.isAggregate = true ∧ q.byValue = true ∧ q.ty.sizeFits c.ptrBytes = false := by
  unfold paramProblem.rest
  -- the two flags pick which check answers
  by_cases hagg : q.ty.isAggregate = true <;> by_cases hbv : q.byValue = true
  · simp only [hagg, hbv, Bool.not_true, Bool.and_false, Bool.false_eq_true, if_false, true_and,
      Option.isNone_iff_eq_none, Ty.checkedSize_eq_none_iff]
    by_cases hfit : q.ty.sizeFits c.ptrBytes = false <;> simp [hfit]
  · simp only [Bool.not_eq_true] at hbv
    simp only [hagg, hbv, Bool.not_false, Bool.and_self, if_true, Bool.false_eq_true, false_and, and_false,
      iff_false]
    exact ne_sizeMessage (by simp)
  · simp only [Bool.not_eq_true] at hagg
    simp only [hagg, hbv, Bool.false_and, Bool.false_eq_true, if_false, Bool.not_false, Bool.and_self,
      if_true, false_and, iff_false]
    exact ne_sizeMessage (by simp)
  · simp only [Bool.not_eq_true] at hagg hbv
    simp only [hagg, hbv, Bool.false_and, Bool.false_eq_true, if_false, Option.isNone_iff_eq_none,
      Ty.checkedSize_eq_none_iff, Ty.sizeFits_of_isAggregate_eq_false c.ptrBytes hagg, false_and, iff_false]
    simp

/-- A parameter is rejected for its size exactly when it is an aggregate passed by value whose
size computation leaves the word range. -/
theorem paramProblem_eq_size_iff :
    paramProblem c q = some ("has type " ++ q.ty.render ++ " whose size does not fit in 64 bits") ↔
      q.ty.isAggregate = true ∧ q.byValue = true ∧ q.ty.sizeFits c.ptrBytes = false := by
  unfold paramProblem
  split
  · -- a pointer is no aggregate, and one into a space kernels cannot receive is rejected for that
    rename_i s hty
    have hagg : q.ty.isAggregate = false := by rw [hty]; rfl
    split
    · simp only [hagg, Bool.false_eq_true, false_and, iff_false]
      exact ne_sizeMessage (by simp)
    · exact paramProblem_rest_eq_size_iff
  · exact paramProblem_rest_eq_size_iff

end Pass

namespace Ty

/-- Every type is aligned to at least one byte. Its checked size exists exactly when every step of
the computation stays in the word range, and is then its exact size, a multiple of its alignment;
its saturating size is the exact size or the largest word. With a pointer width in the word range
and no empty array, a type fits exactly when its exact size is a word. A parameter of the type is
rejected for its size exactly when it is an aggregate passed by value that does not fit. -/
theorem checkedSize_agrees_with_exactSize (p : Nat) (t : Ty) :
    1 ≤ t.align p ∧
      (∀ n, t.checkedSize p = some n ↔ t.sizeFits p = true ∧ n = t.exactSize p) ∧
      t.exactSize p % t.align p = 0 ∧
      t.size p = (if t.sizeFits p then t.exactSize p else Word.max) ∧
      (p ≤ Word.max → t.nonEmptyArrays = true → (t.sizeFits p = true ↔ t.exactSize p ≤ Word.max)) ∧
      ∀ (c : DeviceConfig) (q : Param), c.ptrBytes = p → q.ty = t →
        (Pass.paramProblem c q = some ("has type " ++ t.render ++ " whose size does not fit in 64 bits") ↔
          t.isAggregate = true ∧ q.byValue = true ∧ t.sizeFits p = false) := by
  refine ⟨one_le_align p t, fun _ => checkedSize_eq_some_iff p t, exactSize_mod_align p t, size_eq p t,
    fun hp hne => sizeFits_iff_exactSize_le p hp hne, ?_⟩
  rintro c q rfl rfl
  exact Pass.paramProblem_eq_size_iff

/-- An empty array of elements too large for a word has exact size zero, yet its checked size is
missing, its saturating size is the largest word, and a parameter of the type passed by value is
rejected for its size. -/
theorem emptyArray_of_oversized_elements :
    (Ty.array (.array .i64 (2 ^ 61)) 0).exactSize 8 = 0 ∧ (Ty.array (.array .i64 (2 ^ 61)) 0).checkedSize 8 = none ∧
      (Ty.array (.array .i64 (2 ^ 61)) 0).size 8 = Word.max ∧
      Pass.paramProblem DeviceConfig.cpu ⟨"p", .array (.array .i64 (2 ^ 61)) 0, true⟩ =
        some ("has type " ++ (Ty.array (.array .i64 (2 ^ 61)) 0).render ++ " whose size does not fit in 64 bits") := by
  have hfit : (Ty.array (.array .i64 (2 ^ 61)) 0).sizeFits 8 = false := by decide
  refine ⟨by simp [exactSize], (checkedSize_eq_none_iff 8 _).mpr hfit, by rw [size_eq, hfit]; rfl, ?_⟩
  exact Pass.paramProblem_eq_size_iff.mpr ⟨rfl, rfl, hfit⟩

end Ty

end KernelLaunch
