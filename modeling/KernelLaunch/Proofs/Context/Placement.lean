import KernelLaunch.Proofs.Layout.Rules
/-!
# Where the context record puts its fields

`ContextLayout.ofDevice` is a loop over the eight fields in record order: each field starts at the
end of the one before it rounded up to its alignment, and the record's alignment grows to the
largest field alignment met. Over unbounded numbers that loop is `exactPlaces`; while the record
stays inside the word range the saturating rounding of the loop never saturates, so the loop is
`exactPlaces` (`foldl_placeField`). Every field then starts at a multiple of its alignment and
ends before every later field starts.

Main statement: `ofDevice_layout_round_trip`. On a device whose pointers are one, two or four
bytes wide, or eight bytes or more, the fields lie in record order, aligned and apart, and the
record ends at the end of its last field rounded up to its alignment. Encoding a launch's values
never fails, leaves every byte outside the fields zero, and each element reads back as its value
cut to the field's width, or to eight bytes for a wider pointer field, whose first eight bytes
hold it.
-/

namespace KernelLaunch

namespace Word

/-- Rounding up that stays inside the word range is rounding up over unbounded numbers. -/
theorem alignTo_eq_roundUp {offset align : Nat} (h : 0 < align) (hle : roundUp offset align ≤ max) :
    alignTo offset align = roundUp offset align := by
  unfold alignTo saturatingMul
  rw [divCeil_mul_eq_roundUp h]
  exact Nat.min_eq_left hle

end Word

namespace Bytes

/-- A fresh buffer of zeros holds zero at every index. -/
theorem getElem!_replicate (n j : Nat) : (ByteArray.mk (Array.replicate n 0))[j]! = 0 := by
  by_cases h : j < (ByteArray.mk (Array.replicate n 0)).size
  · rw [getElem!_pos _ j h]
    simp [ByteArray.getElem_eq_getElem_data]
  · rw [getElem!_neg _ j h]
    rfl

/-- A field of one byte holds that byte. -/
theorem slice_one (buf : ByteArray) (j : Nat) : slice buf j 1 = [buf[j]!] := by
  rw [slice_succ]
  simp [slice]

end Bytes

section Largest

variable {α : Type} (g : α → Nat)

/-- A running maximum is at least where it started and at least every value it met. -/
theorem le_foldl_max : ∀ (xs : List α) (m : Nat),
    m ≤ xs.foldl (fun a x => Nat.max a (g x)) m ∧ ∀ x ∈ xs, g x ≤ xs.foldl (fun a x => Nat.max a (g x)) m
  | [], m => ⟨le_refl m, fun x hx => absurd hx List.not_mem_nil⟩
  | y :: ys, m => by
      obtain ⟨h₁, h₂⟩ := le_foldl_max ys (Nat.max m (g y))
      refine ⟨le_trans (Nat.le_max_left _ _) h₁, fun x hx => ?_⟩
      rcases List.mem_cons.mp hx with rfl | hx
      · exact le_trans (Nat.le_max_right _ _) h₁
      · exact h₂ x hx

/-- A running maximum is where it started or one of the values it met. -/
theorem foldl_max_eq : ∀ (xs : List α) (m : Nat),
    xs.foldl (fun a x => Nat.max a (g x)) m = m ∨ ∃ x ∈ xs, xs.foldl (fun a x => Nat.max a (g x)) m = g x
  | [], m => .inl rfl
  | y :: ys, m => by
      rw [List.foldl_cons]
      rcases foldl_max_eq ys (Nat.max m (g y)) with h | ⟨x, hx, h⟩
      · rw [h]
        rcases Nat.le_total m (g y) with hle | hle
        · exact .inr ⟨y, List.mem_cons_self, Nat.max_eq_right hle⟩
        · exact .inl (Nat.max_eq_left hle)
      · exact .inr ⟨x, List.mem_cons_of_mem y hx, h⟩

end Largest

theorem ContextField.index_injective {f g : ContextField} (h : f.index = g.index) : f = g := by
  cases f <;> cases g <;> simp_all [ContextField.index]

namespace ContextLayout

/-! ## The placement loop -/

section Loop

variable (p : Nat)

/-- One round of the loop of `ofDevice`: the field starts at the end so far rounded up to its
alignment, the end moves past its elements and the alignment grows to the field's. -/
def placeField (acc : List Nat × Nat × Nat) (ft : ContextField × Ty) : List Nat × Nat × Nat :=
  let (offs, offset, maxAlign) := acc
  let (f, t) := ft
  let a := t.align p
  let start := Word.alignTo offset a
  (offs ++ [start], start + t.size p * f.len, Nat.max maxAlign a)

/-- Fields placed one after another from `offset` over unbounded numbers: each starts at the end
of the one before it rounded up to its alignment. Answers the starts and the end of the last. -/
def exactPlaces : List (ContextField × Ty) → Nat → List Nat × Nat
  | [], offset => ([], offset)
  | (f, t) :: rest, offset =>
      let start := Word.roundUp offset (t.align p)
      let placed := exactPlaces rest (start + t.size p * f.len)
      (start :: placed.1, placed.2)

/-- The placement never moves back. -/
theorem le_exactPlaces_end : ∀ (xs : List (ContextField × Ty)) (offset : Nat), offset ≤ (exactPlaces p xs offset).2
  | [], _ => le_refl _
  | (f, t) :: rest, offset => by
      have h := le_exactPlaces_end rest (Word.roundUp offset (t.align p) + t.size p * f.len)
      have := Word.le_roundUp offset (Ty.one_le_align p t)
      simp only [exactPlaces]
      omega

theorem length_exactPlaces :
    ∀ (xs : List (ContextField × Ty)) (offset : Nat), (exactPlaces p xs offset).1.length = xs.length
  | [], _ => rfl
  | (f, t) :: rest, offset => by simp [exactPlaces, length_exactPlaces rest]

/-- The loop of `ofDevice` is the placement over unbounded numbers, as long as the record ends
inside the word range; the alignment it answers is the largest it met. -/
theorem foldl_placeField :
    ∀ (xs : List (ContextField × Ty)) (offs : List Nat) (offset maxAlign : Nat),
      (exactPlaces p xs offset).2 ≤ Word.max →
      xs.foldl (placeField p) (offs, offset, maxAlign) =
        (offs ++ (exactPlaces p xs offset).1, (exactPlaces p xs offset).2,
          xs.foldl (fun m x => Nat.max m (x.2.align p)) maxAlign)
  | [], offs, offset, maxAlign, _ => by simp [exactPlaces]
  | (f, t) :: rest, offs, offset, maxAlign, hfit => by
      -- the field's start is below the end of the record, so its rounding does not saturate
      have hend := le_exactPlaces_end p rest (Word.roundUp offset (t.align p) + t.size p * f.len)
      simp only [exactPlaces] at hfit
      have hstart : Word.alignTo offset (t.align p) = Word.roundUp offset (t.align p) :=
        Word.alignTo_eq_roundUp (Ty.one_le_align p t) (by omega)
      rw [List.foldl_cons]
      simp only [placeField, hstart]
      rw [foldl_placeField rest _ _ _ hfit]
      simp [exactPlaces]

/-- The placement ends within the sum, over the fields, of a bound on each field's alignment plus
its extent. -/
theorem exactPlaces_end_le {B : Nat} :
    ∀ (xs : List (ContextField × Ty)) (offset : Nat), (∀ x ∈ xs, x.2.align p + x.2.size p * x.1.len ≤ B) →
      (exactPlaces p xs offset).2 ≤ offset + xs.length * B
  | [], offset, _ => by simp [exactPlaces]
  | (f, t) :: rest, offset, hB => by
      have hhead := hB (f, t) List.mem_cons_self
      have hrest := exactPlaces_end_le rest (Word.roundUp offset (t.align p) + t.size p * f.len)
        fun x hx => hB x (List.mem_cons_of_mem _ hx)
      have := Word.roundUp_lt offset (Ty.one_le_align p t)
      simp only [exactPlaces, List.length_cons]
      dsimp only at hhead
      rw [Nat.succ_mul]
      omega

/-- Each field starts at a multiple of its alignment, at or after the start of the placement, and
ends by its end. -/
theorem exactPlaces_getElem? :
    ∀ (xs : List (ContextField × Ty)) (offset i s : Nat) (x : ContextField × Ty),
      (exactPlaces p xs offset).1[i]? = some s → xs[i]? = some x →
      s % x.2.align p = 0 ∧ offset ≤ s ∧ s + x.2.size p * x.1.len ≤ (exactPlaces p xs offset).2
  | [], _, _, _, _, _, hx => by simp at hx
  | (f, t) :: rest, offset, 0, s, x, hs, hx => by
      simp only [exactPlaces, List.getElem?_cons_zero, Option.some.injEq] at hs hx
      subst hs hx
      have := le_exactPlaces_end p rest (Word.roundUp offset (t.align p) + t.size p * f.len)
      exact ⟨Word.roundUp_mod _ _, Word.le_roundUp offset (Ty.one_le_align p t), this⟩
  | (f, t) :: rest, offset, i + 1, s, x, hs, hx => by
      simp only [exactPlaces, List.getElem?_cons_succ] at hs hx
      obtain ⟨hmod, hle, hend⟩ := exactPlaces_getElem? rest _ i s x hs hx
      have := Word.le_roundUp offset (Ty.one_le_align p t)
      exact ⟨hmod, by omega, hend⟩

/-- A field ends before every later field starts. -/
theorem exactPlaces_ordered :
    ∀ (xs : List (ContextField × Ty)) (offset i j s s' : Nat) (x : ContextField × Ty), i < j →
      (exactPlaces p xs offset).1[i]? = some s → (exactPlaces p xs offset).1[j]? = some s' → xs[i]? = some x →
      s + x.2.size p * x.1.len ≤ s'
  | [], _, _, _, _, _, _, _, hs, _, _ => by simp [exactPlaces] at hs
  | (f, t) :: rest, offset, 0, j + 1, s, s', x, _, hs, hs', hx => by
      -- the head ends where the rest is placed from, and the rest starts no earlier
      simp only [exactPlaces, List.getElem?_cons_zero, List.getElem?_cons_succ, Option.some.injEq] at hs hs' hx
      subst hs hx
      have hj : j < rest.length := by
        have := (List.getElem?_eq_some_iff.mp hs').1
        rwa [length_exactPlaces] at this
      exact (exactPlaces_getElem? p rest _ j s' rest[j] hs' (List.getElem?_eq_getElem hj)).2.1
  | (f, t) :: rest, offset, i + 1, j + 1, s, s', x, hij, hs, hs', hx => by
      simp only [exactPlaces, List.getElem?_cons_succ] at hs hs' hx
      exact exactPlaces_ordered rest _ i j s s' x (by omega) hs hs' hx
  | (f, t) :: rest, offset, _ + 1, 0, s, s', x, hij, _, _, _ => absurd hij (by omega)

/-- The placement ends where its last field ends. -/
theorem exactPlaces_end_eq :
    ∀ (xs : List (ContextField × Ty)) (offset n s : Nat) (x : ContextField × Ty), n + 1 = xs.length →
      (exactPlaces p xs offset).1[n]? = some s → xs[n]? = some x →
      (exactPlaces p xs offset).2 = s + x.2.size p * x.1.len
  | [], _, _, _, _, hn, _, _ => by simp at hn
  | [(f, t)], offset, 0, s, x, _, hs, hx => by
      simp only [exactPlaces, List.getElem?_cons_zero, Option.some.injEq] at hs hx ⊢
      subst hs hx
      rfl
  | (f, t) :: _ :: _, _, 0, _, _, hn, _, _ => by simp at hn
  | (f, t) :: rest, offset, n + 1, s, x, hn, hs, hx => by
      simp only [exactPlaces, List.getElem?_cons_succ, List.length_cons] at hs hx hn ⊢
      exact exactPlaces_end_eq rest _ n s x (by omega) hs hx

end Loop

/-! ## The eight fields -/

variable {c : DeviceConfig}

/-- The fields of the record with their element types on a device, in record order. -/
def fieldTypes (c : DeviceConfig) : List (ContextField × Ty) := ContextField.all.map fun f => (f, f.ty c)

/-- The layout on a device is the loop over its fields. -/
theorem ofDevice_eq (c : DeviceConfig) : ofDevice c =
    { offsets := ((fieldTypes c).foldl (placeField c.ptrBytes) ([], 0, 1)).1,
      types := ContextField.all.map (ContextField.ty c),
      size := Word.alignTo ((fieldTypes c).foldl (placeField c.ptrBytes) ([], 0, 1)).2.1
        ((fieldTypes c).foldl (placeField c.ptrBytes) ([], 0, 1)).2.2,
      align := ((fieldTypes c).foldl (placeField c.ptrBytes) ([], 0, 1)).2.2, ptrBytes := c.ptrBytes } := rfl

theorem ptrBytes_ofDevice (c : DeviceConfig) : (ofDevice c).ptrBytes = c.ptrBytes := by
  rw [ofDevice_eq]

theorem fieldTypes_getElem? (f : ContextField) : (fieldTypes c)[f.index]? = some (f, f.ty c) := by
  cases f <;> rfl

theorem eq_of_mem_fieldTypes {x : ContextField × Ty} (hx : x ∈ fieldTypes c) : x = (x.1, x.1.ty c) := by
  obtain ⟨f, -, rfl⟩ := List.mem_map.mp hx
  rfl

/-- Every element of the record is four or eight bytes, aligned alike, or one pointer wide and
aligned to the pointer's width. -/
theorem ty_align_size (f : ContextField) :
    ((f.ty c).align c.ptrBytes = 4 ∧ (f.ty c).size c.ptrBytes = 4) ∨
      ((f.ty c).align c.ptrBytes = 8 ∧ (f.ty c).size c.ptrBytes = 8) ∨
      ((f.ty c).align c.ptrBytes = max c.ptrBytes 1 ∧ (f.ty c).size c.ptrBytes = c.ptrBytes) := by
  -- `size_t` is four or eight bytes, depending on its width only
  by_cases h : c.sizeTWidth = 32 <;>
    cases f <;> simp [h, ContextField.ty, DeviceConfig.sizeT, Ty.sizeT, DeviceConfig.globalPtr, Ty.align, Ty.size,
      Ty.checkedSize, Ty.scalarSize]


/-- On a device whose pointers are at most a 32-bit word of bits wide, the record and its final
rounding stay far inside the word range. -/
theorem exactPlaces_fieldTypes_le (hbits : c.addressBits ≤ Word.max32) :
    (exactPlaces c.ptrBytes (fieldTypes c) 0).2 + (c.ptrBytes + 8) ≤ Word.max := by
  have hp : c.ptrBytes ≤ Word.max32 / 8 := Nat.div_le_div_right hbits
  have hend := exactPlaces_end_le c.ptrBytes (B := 4 * (c.ptrBytes + 8)) (fieldTypes c) 0 fun x hx => by
    rw [eq_of_mem_fieldTypes hx]
    have hlen : x.1.len ≤ 3 := by cases x.1 <;> simp [ContextField.len]
    have hmul := Nat.mul_le_mul_left c.ptrBytes hlen
    rcases ty_align_size (c := c) x.1 with ⟨ha, hs⟩ | ⟨ha, hs⟩ | ⟨ha, hs⟩ <;> dsimp only <;> rw [ha, hs] <;> omega
  simp only [show (fieldTypes c).length = 8 from rfl] at hend
  unfold Word.max32 at hp
  unfold Word.max
  omega

/-- On a device whose pointers are at most a 32-bit word of bits wide, the fields start where the
placement over unbounded numbers puts them, the record is aligned as the largest alignment the loop
met, and its size is the end of the last field rounded up to that. -/
theorem ofDevice_placed (hbits : c.addressBits ≤ Word.max32) :
    (ofDevice c).offsets = (exactPlaces c.ptrBytes (fieldTypes c) 0).1 ∧
      (ofDevice c).align = (fieldTypes c).foldl (fun m x => Nat.max m (x.2.align c.ptrBytes)) 1 ∧
      (ofDevice c).size = Word.roundUp (exactPlaces c.ptrBytes (fieldTypes c) 0).2 (ofDevice c).align := by
  have hb := exactPlaces_fieldTypes_le hbits
  have hfold := foldl_placeField c.ptrBytes (fieldTypes c) [] 0 1 (by omega)
  -- the alignment is the initial one or a field's, so at least one and at most a pointer's or eight
  have hA := (le_foldl_max (fun x : ContextField × Ty => x.2.align c.ptrBytes) (fieldTypes c) 1).1
  have hA' : (fieldTypes c).foldl (fun m x => Nat.max m (x.2.align c.ptrBytes)) 1 ≤ c.ptrBytes + 8 := by
    rcases foldl_max_eq (fun x : ContextField × Ty => x.2.align c.ptrBytes) (fieldTypes c) 1 with h | ⟨x, hx, h⟩
    · omega
    · rw [h, eq_of_mem_fieldTypes hx]
      rcases ty_align_size (c := c) x.1 with ⟨ha, -⟩ | ⟨ha, -⟩ | ⟨ha, -⟩ <;> dsimp only <;> rw [ha] <;> omega
  have hround := Word.roundUp_lt (exactPlaces c.ptrBytes (fieldTypes c) 0).2 (Nat.lt_of_lt_of_le Nat.one_pos hA)
  rw [ofDevice_eq]
  simp only [hfold, List.nil_append, true_and]
  exact Word.alignTo_eq_roundUp (Nat.lt_of_lt_of_le Nat.one_pos hA) (by omega)

/-- Where the placement puts a field is where the record on the device starts it. -/
theorem exactPlaces_getElem?_index (hbits : c.addressBits ≤ Word.max32) (f : ContextField) :
    (exactPlaces c.ptrBytes (fieldTypes c) 0).1[f.index]? = some ((ofDevice c).offset f 0) := by
  have hlen : f.index < (exactPlaces c.ptrBytes (fieldTypes c) 0).1.length := by
    rw [length_exactPlaces, show (fieldTypes c).length = 8 from rfl]
    cases f <;> decide
  rw [List.getElem?_eq_getElem hlen]
  simp [offset, (ofDevice_placed hbits).1, List.getElem?_eq_getElem hlen]

/-- Every field of the record starts at a multiple of its alignment and ends by the end of the
last field. -/
theorem offset_ofDevice_spec (hbits : c.addressBits ≤ Word.max32) (f : ContextField) :
    (ofDevice c).offset f 0 % (f.ty c).align c.ptrBytes = 0 ∧
      (ofDevice c).offset f 0 + f.len * (ofDevice c).width f ≤ (exactPlaces c.ptrBytes (fieldTypes c) 0).2 := by
  obtain ⟨hmod, -, hend⟩ := exactPlaces_getElem? c.ptrBytes _ 0 f.index _ _ (exactPlaces_getElem?_index hbits f)
    (fieldTypes_getElem? f)
  refine ⟨hmod, ?_⟩
  rw [width_ofDevice, Nat.mul_comm]
  exact hend

/-- A field of the record ends before every later field starts. -/
theorem end_le_offset_ofDevice (hbits : c.addressBits ≤ Word.max32) {f g : ContextField} (h : f.index < g.index) :
    (ofDevice c).offset f 0 + f.len * (ofDevice c).width f ≤ (ofDevice c).offset g 0 := by
  have := exactPlaces_ordered c.ptrBytes _ 0 f.index g.index _ _ _ h (exactPlaces_getElem?_index hbits f)
    (exactPlaces_getElem?_index hbits g) (fieldTypes_getElem? f)
  rw [width_ofDevice, Nat.mul_comm]
  exact this

/-- Encoding writes the record's elements one after another into a zeroed buffer of its size. -/
theorem encode_eq (l : ContextLayout) (v : ContextValues) :
    l.encode v = ContextField.elements.foldlM
      (fun b x => Bytes.writeWord b (l.offset x.1 x.2) (l.width x.1) (v.get x.1 x.2))
      (ByteArray.mk (Array.replicate l.size 0)) := rfl

/-- Element `d` of a field lies `d` elements past the field's start. -/
theorem offset_eq (l : ContextLayout) (f : ContextField) (d : Nat) : l.offset f d = l.offset f 0 + d * l.width f := by
  simp [offset]

/-- An element ends by the start of every later element of its field. -/
theorem offset_add_width_le (l : ContextLayout) (f : ContextField) {d e : Nat} (h : d < e) :
    l.offset f d + l.width f ≤ l.offset f e := by
  rw [offset_eq l f d, offset_eq l f e]
  have := Nat.mul_le_mul_right (l.width f) (Nat.succ_le_of_lt h)
  rw [Nat.succ_mul] at this
  omega

/-- Two different elements of the record share no byte. -/
theorem apart_ofDevice (hbits : c.addressBits ≤ Word.max32) {x y : ContextField × Nat} (hx : x.2 < x.1.len)
    (hy : y.2 < y.1.len) (hne : x ≠ y) : (ofDevice c).Apart x y := by
  obtain ⟨f, d⟩ := x
  obtain ⟨g, e⟩ := y
  dsimp only at hx hy
  unfold Apart
  dsimp only
  -- an element ends by the end of its field, and fields follow one another in record order
  have hf := offset_add_width_le (ofDevice c) f hx
  have hg := offset_add_width_le (ofDevice c) g hy
  rw [offset_eq _ f f.len] at hf
  rw [offset_eq _ g g.len] at hg
  rcases Nat.lt_trichotomy f.index g.index with hfg | hfg | hfg
  · have := end_le_offset_ofDevice hbits hfg
    rw [offset_eq _ g e]
    omega
  · obtain rfl := ContextField.index_injective hfg
    have hde : d ≠ e := fun h => hne (by rw [h])
    rcases Nat.lt_or_gt_of_ne hde with h | h
    · exact .inl (offset_add_width_le _ f h)
    · exact .inr (offset_add_width_le _ f h)
  · have := end_le_offset_ofDevice hbits hfg
    rw [offset_eq _ f d]
    omega

/-- The record's elements pairwise share no byte. -/
theorem pairwise_apart_of_addressBits (hbits : c.addressBits ≤ Word.max32) :
    ContextField.elements.Pairwise (ofDevice c).Apart :=
  List.Nodup.pairwise_of_forall_ne (by decide) fun _ hx _ hy hne =>
    apart_ofDevice hbits (ContextField.mem_elements.mp hx) (ContextField.mem_elements.mp hy) hne

/-- The record is aligned to the largest alignment of its fields. -/
theorem align_ofDevice (hbits : c.addressBits ≤ Word.max32) :
    (∀ f : ContextField, (f.ty c).align c.ptrBytes ≤ (ofDevice c).align) ∧
      ∃ f : ContextField, (ofDevice c).align = (f.ty c).align c.ptrBytes := by
  rw [(ofDevice_placed hbits).2.1]
  obtain ⟨-, hle⟩ := le_foldl_max (fun x : ContextField × Ty => x.2.align c.ptrBytes) (fieldTypes c) 1
  refine ⟨fun f => hle (f, f.ty c) (List.mem_map.mpr ⟨f, by cases f <;> simp [ContextField.all], rfl⟩), ?_⟩
  rcases foldl_max_eq (fun x : ContextField × Ty => x.2.align c.ptrBytes) (fieldTypes c) 1 with h | ⟨x, hx, h⟩
  · -- the work dimension alone is aligned to four bytes, so the largest is not the initial one
    have h4 := hle (.workDim, .i32) (List.mem_map.mpr ⟨.workDim, by simp [ContextField.all], rfl⟩)
    simp [h, Ty.align, Ty.scalarSize] at h4
  · refine ⟨x.1, ?_⟩
    rw [h, eq_of_mem_fieldTypes hx]

/-- The last field ends the placement of the record's fields. -/
theorem exactPlaces_end_ofDevice (hbits : c.addressBits ≤ Word.max32) :
    (exactPlaces c.ptrBytes (fieldTypes c) 0).2 =
      (ofDevice c).offset .printfBufferCapacity 0 + (ofDevice c).width .printfBufferCapacity := by
  rw [exactPlaces_end_eq c.ptrBytes _ 0 7 _ _ rfl (exactPlaces_getElem?_index hbits .printfBufferCapacity)
    (fieldTypes_getElem? .printfBufferCapacity), width_ofDevice]
  simp [ContextField.len]

/-- The record holds the placement of its fields and lies inside the word range. -/
theorem size_ofDevice_le (hbits : c.addressBits ≤ Word.max32) :
    (exactPlaces c.ptrBytes (fieldTypes c) 0).2 ≤ (ofDevice c).size ∧ (ofDevice c).size ≤ Word.max := by
  obtain ⟨-, -, hsize⟩ := ofDevice_placed hbits
  have hb := exactPlaces_fieldTypes_le hbits
  obtain ⟨hA, f, hf⟩ := align_ofDevice hbits
  have hpos : 0 < (ofDevice c).align := Nat.lt_of_lt_of_le (Ty.one_le_align c.ptrBytes (ContextField.ty c .workDim))
    (hA .workDim)
  -- the final rounding adds less than the alignment, which is at most a pointer's or eight
  have hround := Word.roundUp_lt (exactPlaces c.ptrBytes (fieldTypes c) 0).2 hpos
  have hAle : (ofDevice c).align ≤ c.ptrBytes + 8 := by
    rcases ty_align_size (c := c) f with ⟨ha, -⟩ | ⟨ha, -⟩ | ⟨ha, -⟩ <;> omega
  rw [hsize]
  exact ⟨Word.le_roundUp _ hpos, by omega⟩

/-- Every element of the record lies inside it. -/
theorem element_end_le_size (hbits : c.addressBits ≤ Word.max32) {x : ContextField × Nat}
    (hx : x ∈ ContextField.elements) :
    (ofDevice c).offset x.1 x.2 + (ofDevice c).width x.1 ≤ (ofDevice c).size :=
  calc (ofDevice c).offset x.1 x.2 + (ofDevice c).width x.1
      ≤ (ofDevice c).offset x.1 x.1.len := offset_add_width_le _ _ (ContextField.mem_elements.mp hx)
    _ = (ofDevice c).offset x.1 0 + x.1.len * (ofDevice c).width x.1 := offset_eq _ _ _
    _ ≤ (exactPlaces c.ptrBytes (fieldTypes c) 0).2 := (offset_ofDevice_spec hbits x.1).2
    _ ≤ (ofDevice c).size := (size_ofDevice_le hbits).1

/-- With pointers of a word width, every field of the record is one: four or eight bytes, or a
pointer's. -/
theorem wordWidth_ofDevice (hp : Bytes.WordWidth c.ptrBytes) (f : ContextField) :
    Bytes.WordWidth ((ofDevice c).width f) := by
  rw [width_ofDevice]
  rcases ty_align_size (c := c) f with ⟨-, hs⟩ | ⟨-, hs⟩ | ⟨-, hs⟩ <;> rw [hs]
  · exact .inr (.inr (.inl rfl))
  · exact .inr (.inr (.inr (le_refl 8)))
  · exact hp

/-- Encoding any values into the record succeeds with a buffer of the record's size, zero outside
the elements, from which each element reads back as its value cut to the field's width, or to its
first eight bytes for a wider field. -/
theorem encode_ofDevice (hbits : c.addressBits ≤ Word.max32) (hp : Bytes.WordWidth c.ptrBytes)
    (v : ContextValues) :
    ∃ bytes, (ofDevice c).encode v = .ok bytes ∧ bytes.size = (ofDevice c).size ∧
      (∀ j, (∀ f d, d < f.len → j < (ofDevice c).offset f d ∨ (ofDevice c).offset f d + (ofDevice c).width f ≤ j) →
        bytes[j]! = 0) ∧
      ∀ f d, d < f.len → (ofDevice c).read bytes f d = .ok (v.get f d % 2 ^ (8 * min ((ofDevice c).width f) 8)) := by
  have hwidth : ∀ x ∈ ContextField.elements, Bytes.WordWidth ((ofDevice c).width x.1) :=
    fun x _ => wordWidth_ofDevice hp x.1
  -- the record's elements are written one after another into a zeroed buffer of its size
  have hzero : (ByteArray.mk (Array.replicate (ofDevice c).size 0)).size = (ofDevice c).size :=
    Array.size_replicate ..
  obtain ⟨bytes, hbytes⟩ := Bytes.foldlM_writeWord_ok (fun x : ContextField × Nat => (ofDevice c).offset x.1 x.2)
    (fun x => (ofDevice c).width x.1) (fun x => v.get x.1 x.2) ContextField.elements
    (ByteArray.mk (Array.replicate (ofDevice c).size 0)) hwidth fun x hx => by
      have h₁ := element_end_le_size hbits hx
      have h₂ := (size_ofDevice_le hbits).2
      rw [hzero]
      exact ⟨by omega, h₁⟩
  obtain ⟨hsz, hreads⟩ := Bytes.readWord_foldlM_writeWord (fun x : ContextField × Nat => (ofDevice c).offset x.1 x.2)
    (fun x => (ofDevice c).width x.1) (fun x => v.get x.1 x.2) ContextField.elements _ bytes hwidth
    (pairwise_apart_of_addressBits hbits) hbytes
  refine ⟨bytes, (encode_eq _ v).trans hbytes, hsz.trans hzero, fun j hj => ?_, fun f d hd => ?_⟩
  · -- a byte outside every element keeps the zero it started as
    have hkeep := (Bytes.slice_foldlM_writeWord (fun x : ContextField × Nat => (ofDevice c).offset x.1 x.2)
      (fun x => (ofDevice c).width x.1) (fun x => v.get x.1 x.2) (s := j) (n := 1) ContextField.elements _ bytes
      hwidth (fun x hx => by have := hj x.1 x.2 (ContextField.mem_elements.mp hx); omega) hbytes).2
    rw [Bytes.slice_one, Bytes.slice_one, Bytes.getElem!_replicate, List.singleton_inj] at hkeep
    exact hkeep
  · have hread := hreads (f, d) (ContextField.mem_elements.mpr hd)
    dsimp only at hread
    unfold read
    rw [hread, show (2 : Nat) ^ (8 * min ((ofDevice c).width f) 8) = 256 ^ min ((ofDevice c).width f) 8 by
      rw [Nat.pow_mul]]

/-- The record on a device with pointers of a word width: its fields lie in record order, each
at a multiple of its alignment and apart from the next, and it ends at the end of its last field
rounded up to its largest alignment. Encoding any values succeeds, leaves every byte outside the
elements zero, and each element reads back as its value cut to the field's width, or to its first
eight bytes for a wider field. -/
theorem ofDevice_layout_round_trip (c : DeviceConfig) (hbits : c.addressBits ≤ Word.max32)
    (hp : Bytes.WordWidth c.ptrBytes) :
    (∀ f, (ofDevice c).offset f 0 % ((ofDevice c).fieldTy f).align (ofDevice c).ptrBytes = 0) ∧
      (∀ f d, (ofDevice c).offset f d = (ofDevice c).offset f 0 + d * (ofDevice c).width f) ∧
      (∀ f g : ContextField, f.index < g.index →
        (ofDevice c).offset f 0 + f.len * (ofDevice c).width f ≤ (ofDevice c).offset g 0) ∧
      ((∀ f, ((ofDevice c).fieldTy f).align (ofDevice c).ptrBytes ≤ (ofDevice c).align) ∧
        ∃ f, (ofDevice c).align = ((ofDevice c).fieldTy f).align (ofDevice c).ptrBytes) ∧
      (ofDevice c).size = Word.roundUp ((ofDevice c).offset .printfBufferCapacity 0 +
        (ofDevice c).width .printfBufferCapacity) (ofDevice c).align ∧
      ∀ v : ContextValues, ∃ bytes, (ofDevice c).encode v = .ok bytes ∧ bytes.size = (ofDevice c).size ∧
        (∀ j, (∀ f d, d < f.len → j < (ofDevice c).offset f d ∨ (ofDevice c).offset f d + (ofDevice c).width f ≤ j) →
          bytes[j]! = 0) ∧
        ∀ f d, d < f.len → (ofDevice c).read bytes f d = .ok (v.get f d % 2 ^ (8 * min ((ofDevice c).width f) 8)) := by
  refine ⟨fun f => ?_, fun f d => offset_eq _ f d, fun f g => end_le_offset_ofDevice hbits, ?_, ?_,
    encode_ofDevice hbits hp⟩
  · rw [fieldTy_ofDevice, ptrBytes_ofDevice]
    exact (offset_ofDevice_spec hbits f).1
  · simp only [fieldTy_ofDevice, ptrBytes_ofDevice]
    exact align_ofDevice hbits
  · rw [(ofDevice_placed hbits).2.2, exactPlaces_end_ofDevice hbits]

/-- A device of one-byte pointers, where the output buffer's pointer fields sit unaligned to the
four-byte fields around them. -/
def bytePointerDevice : DeviceConfig := { DeviceConfig.cpu with addressBits := 8 }

theorem ofDevice_layout_round_trip_bytePointers :
    bytePointerDevice.addressBits ≤ Word.max32 ∧ Bytes.WordWidth bytePointerDevice.ptrBytes ∧
      ∀ v : ContextValues, ∃ bytes, (ofDevice bytePointerDevice).encode v = .ok bytes ∧
        ∀ f d, d < f.len → (ofDevice bytePointerDevice).read bytes f d =
          .ok (v.get f d % 2 ^ (8 * min ((ofDevice bytePointerDevice).width f) 8)) := by
  have hbits : bytePointerDevice.addressBits ≤ Word.max32 := by decide
  have hp : Bytes.WordWidth bytePointerDevice.ptrBytes := .inl rfl
  refine ⟨hbits, hp, fun v => ?_⟩
  obtain ⟨bytes, henc, -, -, hread⟩ := (ofDevice_layout_round_trip bytePointerDevice hbits hp).2.2.2.2.2 v
  exact ⟨bytes, henc, hread⟩

end ContextLayout

end KernelLaunch
