import Mathlib
import KernelLaunch.Bytes
/-!
# Words in byte buffers

A word written into a buffer reads back as the word cut to the field's width, and a write leaves
every byte outside its field as it was. Bytes are looked at one at a time through `b[i]!`: the
lemmas say what `overwrite` does to each byte (`getElem!_overwrite`), what a run of bytes holds
(`slice_overwrite_self`, `slice_overwrite_of_disjoint`), and that little-endian digits give the
word back (`ofLittleEndian_littleEndian`). A field of one, two or four bytes holds the word cut
to its width, and a field of eight bytes or more holds the word's eight bytes at its start
(`WordWidth`). `readWord_foldlM_writeWord` puts these together for a record whose fields are
written one after another and share no byte.
-/

namespace KernelLaunch

/-- A checked computation followed by another succeeds exactly when both succeed in turn. -/
theorem except_bind_eq_ok {ε α β : Type} {x : Except ε α} {f : α → Except ε β} {y : β} :
    x >>= f = .ok y ↔ ∃ a, x = .ok a ∧ f a = .ok y := by
  cases x <;> simp [bind, Except.bind]

theorem except_pure_eq_ok {ε α : Type} {a b : α} : (pure a : Except ε α) = .ok b ↔ a = b := by
  simp [pure, Except.pure]

namespace Bytes

theorem getElem?_getD_eq (b : ByteArray) (i : Nat) : b[i]?.getD 0 = b[i]! := by
  rw [getElem!_def]
  cases b[i]? <;> rfl

theorem getElem!_append (a b : ByteArray) (i : Nat) :
    (a ++ b)[i]! = if i < a.size then a[i]! else b[i - a.size]! := by
  by_cases hab : i < (a ++ b).size
  · rw [getElem!_pos (a ++ b) i hab]
    rw [ByteArray.size_append] at hab
    split
    · rename_i ha
      rw [getElem!_pos a i ha, ByteArray.getElem_append_left ha]
    · rename_i ha
      rw [getElem!_pos b (i - a.size) (by omega), ByteArray.getElem_append_right (by omega)]
  · rw [getElem!_neg (a ++ b) i hab]
    rw [ByteArray.size_append] at hab
    rw [if_neg (by omega), getElem!_neg b (i - a.size) (by omega)]

theorem getElem!_extract (a : ByteArray) (start stop i : Nat) :
    (a.extract start stop)[i]! = if i < stop - start then a[start + i]! else 0 := by
  by_cases hi : i < (a.extract start stop).size
  · rw [getElem!_pos _ i hi, ByteArray.getElem_extract,
      getElem!_pos a (start + i) (ByteArray.getElem_extract_aux hi)]
    rw [ByteArray.size_extract] at hi
    rw [if_pos (by omega)]
  · rw [getElem!_neg _ i hi]
    rw [ByteArray.size_extract] at hi
    split
    · exact (getElem!_neg a (start + i) (by omega)).symm
    · rfl

theorem size_repeat_push (k : Nat) (b : ByteArray) :
    (Nat.repeat (fun b => b.push 0) k b).size = b.size + k := by
  induction k with
  | zero => rfl
  | succ k ih => simp [Nat.repeat, ih, Nat.add_assoc]

theorem getElem!_repeat_push (k : Nat) (b : ByteArray) (i : Nat) :
    (Nat.repeat (fun b => b.push 0) k b)[i]! = if i < b.size then b[i]! else 0 := by
  induction k with
  | zero =>
      simp only [Nat.repeat]
      split
      · rfl
      · rename_i hi
        rw [getElem!_neg b i hi]
        rfl
  | succ k ih =>
      simp only [Nat.repeat]
      rw [ByteArray.getElem!_push, size_repeat_push, ih]
      split
      · rw [if_neg (by omega)]
      · rfl

theorem size_emptyWithCapacity (n : Nat) : (ByteArray.emptyWithCapacity n).size = 0 := rfl

@[simp]
theorem size_zeros (n : Nat) : (zeros n).size = n := by
  rw [zeros, size_repeat_push, size_emptyWithCapacity, Nat.zero_add]

@[simp]
theorem getElem!_zeros (n i : Nat) : (zeros n)[i]! = 0 := by
  rw [zeros, getElem!_repeat_push, size_emptyWithCapacity, if_neg (Nat.not_lt_zero i)]

@[simp]
theorem size_overwrite (buf : ByteArray) (start : Nat) (data : List UInt8) :
    (overwrite buf start data).size = buf.size := by
  unfold overwrite
  generalize data.zipIdx = pairs
  induction pairs generalizing buf with
  | nil => rfl
  | cons p ps ih => simp [List.foldl_cons, ih]

/-- The writes of `overwrite` from index `k` of the data on. -/
theorem getElem!_foldl_set (data : List UInt8) (start k : Nat) (buf : ByteArray) (j : Nat)
    (hfit : start + k + data.length ≤ buf.size) :
    (List.foldl (fun b (p : UInt8 × Nat) => b.set! (start + p.2) p.1) buf (data.zipIdx k))[j]! =
      if start + k ≤ j ∧ j < start + k + data.length then data[j - (start + k)]! else buf[j]! := by
  induction data generalizing k buf with
  | nil =>
      simp only [List.zipIdx_nil, List.foldl_nil, List.length_nil, Nat.add_zero]
      rw [if_neg (by omega)]
  | cons x xs ih =>
      simp only [List.zipIdx_cons, List.foldl_cons, List.length_cons] at hfit ⊢
      rw [ih (k + 1) (buf.set! (start + k) x) (by simp; omega)]
      rw [ByteArray.getElem!_set! _ _ _ _ (by omega)]
      by_cases hj : start + k = j
      · subst hj
        rw [if_neg (by omega), if_pos rfl, if_pos (by omega), Nat.sub_self]
        simp
      · by_cases hin : start + (k + 1) ≤ j ∧ j < start + (k + 1) + xs.length
        · rw [if_pos hin, if_pos (by omega), show j - (start + k) = j - (start + (k + 1)) + 1 by omega]
          simp
        · rw [if_neg hin, if_neg hj, if_neg (by omega)]

/-- A byte of an overwritten buffer: the data's byte inside the written field, the buffer's
outside it. -/
theorem getElem!_overwrite (buf : ByteArray) (start : Nat) (data : List UInt8) (j : Nat)
    (hfit : start + data.length ≤ buf.size) :
    (overwrite buf start data)[j]! =
      if start ≤ j ∧ j < start + data.length then data[j - start]! else buf[j]! := by
  have h := getElem!_foldl_set data start 0 buf j (by simpa using hfit)
  simpa [overwrite] using h

@[simp]
theorem length_slice (buf : ByteArray) (start n : Nat) : (slice buf start n).length = n := by
  simp [slice]

theorem getElem_slice (buf : ByteArray) (start n i : Nat) (hi : i < (slice buf start n).length) :
    (slice buf start n)[i] = buf[start + i]! := by
  simp [slice, getElem?_getD_eq]

theorem slice_succ (buf : ByteArray) (start n : Nat) :
    slice buf start (n + 1) = buf[start]! :: slice buf (start + 1) n := by
  simp only [slice, List.range_succ_eq_map, List.map_cons, List.map_map, Nat.add_zero, getElem?_getD_eq]
  congr 1
  apply List.map_congr_left
  intro i _
  simp only [Function.comp_apply]
  congr 1
  omega

/-- The bytes of a buffer, in order, are its slice from the start. -/
theorem toList_eq_slice (b : ByteArray) : b.toList = slice b 0 b.size := by
  -- the loop behind the list has put the bytes before `i` in front, reversed
  have hloop : ∀ k i r, b.size - i = k →
      ByteArray.toList.loop b i r = r.reverse ++ slice b i (b.size - i) := by
    intro k
    induction k with
    | zero =>
        intro i r hk
        rw [ByteArray.toList.loop, if_neg (by omega), hk]
        simp [slice]
    | succ k ih =>
        intro i r hk
        rw [ByteArray.toList.loop, if_pos (by omega), ih (i + 1) _ (by omega),
          show b.size - i = (b.size - (i + 1)) + 1 by omega, slice_succ]
        simp only [ByteArray.get!, getElem!_def, List.reverse_cons, List.append_assoc, List.singleton_append]
        rfl
  unfold ByteArray.toList
  simpa using hloop _ 0 [] rfl

/-- A buffer is its bytes: two buffers of one size with the same bytes are equal. -/
theorem eq_of_slice_eq {a b : ByteArray} {n : Nat} (ha : a.size = n) (hb : b.size = n)
    (h : slice a 0 n = slice b 0 n) : a = b := by
  apply ByteArray.ext
  apply Array.ext (by change a.size = b.size; omega)
  intro i hia hib
  have hi : i < (slice a 0 n).length := by simp only [length_slice, ← ha]; exact hia
  have hget := congrArg (fun l : List UInt8 => l[i]?) h
  simp only [List.getElem?_eq_getElem hi, List.getElem?_eq_getElem (h ▸ hi), Option.some.injEq, getElem_slice,
    Nat.zero_add] at hget
  rw [getElem!_pos a i hia, getElem!_pos b i hib] at hget
  exact hget

/-- The first bytes of a field are a field of their own. -/
theorem take_slice (buf : ByteArray) (start : Nat) {n k : Nat} (hk : k ≤ n) :
    (slice buf start n).take k = slice buf start k := by
  simp only [slice, ← List.map_take, List.take_range, Nat.min_eq_left hk]

/-- The field just written holds the data. -/
theorem slice_overwrite_self (buf : ByteArray) (start : Nat) (data : List UInt8)
    (hfit : start + data.length ≤ buf.size) :
    slice (overwrite buf start data) start data.length = data := by
  apply List.ext_getElem (by simp)
  intro i h₁ h₂
  rw [getElem_slice, getElem!_overwrite _ _ _ _ hfit, if_pos (by simp at h₁; omega)]
  simp [h₂]

/-- A field apart from the one written keeps its bytes. -/
theorem slice_overwrite_of_disjoint (buf : ByteArray) (start : Nat) (data : List UInt8) (s n : Nat)
    (hfit : start + data.length ≤ buf.size) (hdis : s + n ≤ start ∨ start + data.length ≤ s) :
    slice (overwrite buf start data) s n = slice buf s n := by
  apply List.ext_getElem (by simp)
  intro i h₁ h₂
  rw [getElem_slice, getElem_slice, getElem!_overwrite _ _ _ _ hfit, if_neg (by simp at h₁; omega)]

@[simp]
theorem length_littleEndian (value n : Nat) : (littleEndian value n).length = n := by
  simp [littleEndian]

/-- The low digits of a word are the digits of the word cut to their width. -/
theorem take_littleEndian (value : Nat) {n k : Nat} (hk : k ≤ n) :
    (littleEndian value n).take k = littleEndian value k := by
  simp only [littleEndian, ← List.map_take, List.take_range, Nat.min_eq_left hk]

theorem ofLittleEndian_append (xs ys : List UInt8) :
    ofLittleEndian (xs ++ ys) = ofLittleEndian xs + 256 ^ xs.length * ofLittleEndian ys := by
  induction xs with
  | nil => simp [ofLittleEndian]
  | cons a xs ih =>
      simp only [List.cons_append, ofLittleEndian, List.foldr_cons] at ih ⊢
      rw [ih, List.length_cons, Nat.mul_add, Nat.pow_succ, Nat.add_assoc, Nat.mul_assoc, Nat.mul_left_comm]

theorem littleEndian_succ (value n : Nat) :
    littleEndian value (n + 1) = littleEndian value n ++ [(value / 256 ^ n % 256).toUInt8] := by
  simp [littleEndian, List.range_succ, Nat.pow_eq]

/-- Little-endian digits give the word back, cut to their number of bytes. -/
theorem ofLittleEndian_littleEndian (value n : Nat) :
    ofLittleEndian (littleEndian value n) = value % 256 ^ n := by
  induction n with
  | zero => simp [littleEndian, ofLittleEndian, Nat.mod_one]
  | succ n ih =>
      -- the new top digit is the next base-256 digit of the word
      have hdigit : (value / 256 ^ n % 256).toUInt8.toNat = value / 256 ^ n % 256 := by
        simp [UInt8.toNat_ofNat']
      rw [littleEndian_succ, ofLittleEndian_append, ih, length_littleEndian, Nat.mod_pow_succ]
      simp [ofLittleEndian, hdigit]

theorem checkRange_eq_ok {size start len : Nat} :
    checkRange size start len = .ok () ↔ start + len ≤ Word.max ∧ start + len ≤ size := by
  unfold checkRange
  split
  · simp only [reduceCtorEq, false_iff]
    omega
  · split
    · simp only [reduceCtorEq, false_iff]
      omega
    · simp only [true_iff]
      omega

/-- The widths a word field can have: one, two or four bytes, or eight and more, of which the first
eight hold the word and the rest are left as they are. -/
def WordWidth (w : Nat) : Prop := w = 1 ∨ w = 2 ∨ w = 4 ∨ 8 ≤ w

/-- The widths 1, 2, 4 and 8 are word widths, each holding all of its bytes. -/
theorem wordWidth_of_mem {w : Nat} (hw : w ∈ [1, 2, 4, 8]) : WordWidth w ∧ min w 8 = w := by
  simp only [List.mem_cons, List.not_mem_nil, or_false] at hw
  unfold WordWidth
  omega

/-- A write of a word into a field of a word width succeeds exactly when the field fits, and then
overwrites the field's first bytes, up to eight, with the word's little-endian bytes. -/
theorem writeWord_eq_ok_of_wordWidth {buf buf' : ByteArray} {start w v : Nat} (hw : WordWidth w) :
    writeWord buf start w v = .ok buf' ↔
      (start + w ≤ Word.max ∧ start + w ≤ buf.size) ∧ overwrite buf start (littleEndian v (min w 8)) = buf' := by
  rw [← checkRange_eq_ok]
  unfold writeWord
  cases hc : checkRange buf.size start w with
  | error f => simp [bind, Except.bind]
  | ok u =>
      simp only [bind, Except.bind, true_and]
      rcases hw with rfl | rfl | rfl | h8
      · simp [pure, Except.pure]
      · simp [pure, Except.pure]
      · simp [pure, Except.pure]
      · -- a wide field takes the eight bytes of the word at its start
        have hsmall : (w == 1 || w == 2 || w == 4) = false := by simp; omega
        simp [hsmall, show ¬ w < 8 by omega, Nat.min_eq_right h8, pure, Except.pure]

/-- A read of a field of a word width that fits answers the word of its first bytes, up to eight. -/
theorem readWord_eq_ok_of_wordWidth {buf : ByteArray} {start w : Nat} (hw : WordWidth w)
    (hfit : start + w ≤ Word.max ∧ start + w ≤ buf.size) :
    readWord buf start w = .ok (ofLittleEndian (slice buf start (min w 8))) := by
  rw [← checkRange_eq_ok] at hfit
  unfold readWord
  simp only [hfit, bind, Except.bind]
  rcases hw with rfl | rfl | rfl | h8
  · rfl
  · rfl
  · rfl
  · have hsmall : (w == 1 || w == 2 || w == 4) = false := by simp; omega
    simp [hsmall, show ¬ w < 8 by omega, Nat.min_eq_right h8, pure, Except.pure]

/-- A write of a word of width 1, 2, 4 or 8 succeeds exactly when its field fits, and then
overwrites the field with the word's little-endian bytes. -/
theorem writeWord_eq_ok {buf buf' : ByteArray} {start w v : Nat} (hw : w ∈ [1, 2, 4, 8]) :
    writeWord buf start w v = .ok buf' ↔
      (start + w ≤ Word.max ∧ start + w ≤ buf.size) ∧ overwrite buf start (littleEndian v w) = buf' := by
  obtain ⟨hw', hmin⟩ := wordWidth_of_mem hw
  rw [writeWord_eq_ok_of_wordWidth hw', hmin]

/-- A read of a field of width 1, 2, 4 or 8 that fits answers the word of its bytes. -/
theorem readWord_eq_ok {buf : ByteArray} {start w : Nat} (hw : w ∈ [1, 2, 4, 8])
    (hfit : start + w ≤ Word.max ∧ start + w ≤ buf.size) :
    readWord buf start w = .ok (ofLittleEndian (slice buf start w)) := by
  obtain ⟨hw', hmin⟩ := wordWidth_of_mem hw
  rw [readWord_eq_ok_of_wordWidth hw' hfit, hmin]

section Fields

/-! ## Fields written one after another

The writes are given by a position, a width and a value for each entry of a list, as a record
encoder lays out its fields. -/

variable {α : Type} (pos wid val : α → Nat)

/-- Writes of words into fields apart from `[s, s + n)` keep that field's bytes and the buffer's
size. -/
theorem slice_foldlM_writeWord {s n : Nat} :
    ∀ (xs : List α) (buf buf' : ByteArray), (∀ x ∈ xs, WordWidth (wid x)) →
      (∀ x ∈ xs, pos x + wid x ≤ s ∨ s + n ≤ pos x) →
      xs.foldlM (fun b x => writeWord b (pos x) (wid x) (val x)) buf = .ok buf' →
      buf'.size = buf.size ∧ slice buf' s n = slice buf s n
  | [], buf, buf', _, _, h => by
      cases h
      exact ⟨rfl, rfl⟩
  | x :: xs, buf, buf', hw, hapart, h => by
      rw [List.foldlM_cons] at h
      obtain ⟨b₁, h₁, hrest⟩ := except_bind_eq_ok.mp h
      obtain ⟨hfit, rfl⟩ := (writeWord_eq_ok_of_wordWidth (hw x List.mem_cons_self)).mp h₁
      obtain ⟨hsize, hslice⟩ := slice_foldlM_writeWord xs _ buf'
        (fun y hy => hw y (List.mem_cons_of_mem x hy)) (fun y hy => hapart y (List.mem_cons_of_mem x hy)) hrest
      -- the bytes written are the field's first ones, so they miss `[s, s + n)` too
      have hlen : (littleEndian (val x) (min (wid x) 8)).length ≤ wid x := by simp
      have hx := hapart x List.mem_cons_self
      refine ⟨by rw [hsize, size_overwrite], ?_⟩
      rw [hslice, slice_overwrite_of_disjoint _ _ _ _ _ (by simp at hlen ⊢; omega) (by omega)]

/-- Words written into fields that lie inside the buffer and the word range all get written. -/
theorem foldlM_writeWord_ok :
    ∀ (xs : List α) (buf : ByteArray), (∀ x ∈ xs, WordWidth (wid x)) →
      (∀ x ∈ xs, pos x + wid x ≤ Word.max ∧ pos x + wid x ≤ buf.size) →
      ∃ buf', xs.foldlM (fun b x => writeWord b (pos x) (wid x) (val x)) buf = .ok buf'
  | [], buf, _, _ => ⟨buf, rfl⟩
  | x :: xs, buf, hw, hfit => by
      have h₁ := (writeWord_eq_ok_of_wordWidth (v := val x) (hw x List.mem_cons_self)).mpr
        ⟨hfit x List.mem_cons_self, rfl⟩
      obtain ⟨buf', hrest⟩ := foldlM_writeWord_ok xs _ (fun y hy => hw y (List.mem_cons_of_mem x hy))
        (fun y hy => by rw [size_overwrite]; exact hfit y (List.mem_cons_of_mem x hy))
      exact ⟨buf', by rw [List.foldlM_cons, h₁]; exact hrest⟩

/-- Words written into fields that pairwise share no byte each read back from their field, cut to
the field's width or to eight bytes, whichever is less; the buffer keeps its size. -/
theorem readWord_foldlM_writeWord :
    ∀ (xs : List α) (buf buf' : ByteArray), (∀ x ∈ xs, WordWidth (wid x)) →
      xs.Pairwise (fun x y => pos x + wid x ≤ pos y ∨ pos y + wid y ≤ pos x) →
      xs.foldlM (fun b x => writeWord b (pos x) (wid x) (val x)) buf = .ok buf' →
      buf'.size = buf.size ∧
        ∀ x ∈ xs, readWord buf' (pos x) (wid x) = .ok (val x % 256 ^ min (wid x) 8)
  | [], buf, buf', _, _, h => by
      cases h
      exact ⟨rfl, fun x hx => absurd hx List.not_mem_nil⟩
  | x :: xs, buf, buf', hw, hapart, h => by
      rw [List.foldlM_cons] at h
      obtain ⟨b₁, h₁, hrest⟩ := except_bind_eq_ok.mp h
      obtain ⟨hfit, rfl⟩ := (writeWord_eq_ok_of_wordWidth (hw x List.mem_cons_self)).mp h₁
      have hw' : ∀ y ∈ xs, WordWidth (wid y) := fun y hy => hw y (List.mem_cons_of_mem x hy)
      rw [List.pairwise_cons] at hapart
      obtain ⟨hsize, hreads⟩ := readWord_foldlM_writeWord xs _ buf' hw' hapart.2 hrest
      rw [size_overwrite] at hsize
      refine ⟨hsize, fun y hy => ?_⟩
      rcases List.mem_cons.mp hy with rfl | hy
      · -- the later writes miss the field just written
        have hkeep := slice_foldlM_writeWord pos wid val (s := pos y) (n := min (wid y) 8) xs _ buf' hw'
          (fun z hz => by have := hapart.1 z hz; omega) hrest
        have hself : slice (overwrite buf (pos y) (littleEndian (val y) (min (wid y) 8))) (pos y)
            (min (wid y) 8) = littleEndian (val y) (min (wid y) 8) := by
          simpa using slice_overwrite_self buf (pos y) (littleEndian (val y) (min (wid y) 8))
            (by simp; omega)
        rw [readWord_eq_ok_of_wordWidth (hw y List.mem_cons_self) ⟨hfit.1, by omega⟩, hkeep.2, hself,
          ofLittleEndian_littleEndian]
      · exact hreads y hy

end Fields

end Bytes

end KernelLaunch
