import KernelLaunch.Proofs.Layout.Slots
/-!
# The layout rules, over unbounded numbers

The layout of an argument buffer follows from the kernel's parameters and the device by a few
rules, stated here over unbounded numbers. Each parameter gets the slot its type and passing mode
call for (`shapeOf`): a by-value aggregate is stored inline, a pointer into local memory gets a
local slot, another pointer a pointer slot and any other word a scalar slot, each as large and as
aligned as its type, except that a slot holding the size of local memory the launcher allocates is
as wide as the wider of `size_t` and a pointer. Each slot starts at the end of the one before it
rounded up to its alignment, and the buffer ends at the end of the last slot rounded up to the
largest alignment (`exactLayout`).

Main statement: `compute_follows_rules`. Computing a layout answers one precisely when every
parameter has a slot and the whole buffer fits in a word, and the layout it answers is the one the
rules give, whose slots are aligned, in order, apart and inside the buffer. Every word checked
along the way lies at or below the buffer's end, so one check that fails is the same as a buffer
that does not fit.

Rounding up divides by the alignment. On a device whose `size_t` and pointers are both under a
byte wide, a slot for the size of launcher-allocated local memory has alignment zero, and reaching
it stops the computation on a division by zero (`compute_eq_error`); validated devices are clear of
this, as the widths they accept are 32 or 64 bits.
-/

namespace KernelLaunch

namespace Word

/-- The least multiple of `align` at or above `offset`, over unbounded numbers. -/
def roundUp (offset align : Nat) : Nat := (offset + align - 1) / align * align

section RoundUp

variable {offset align : Nat}

theorem roundUp_mod (offset align : Nat) : roundUp offset align % align = 0 := Nat.mul_mod_left _ _

theorem le_roundUp (offset : Nat) (h : 0 < align) : offset ≤ roundUp offset align := by
  have := @Nat.lt_div_mul_add (offset + align - 1) align h
  unfold roundUp
  omega

theorem roundUp_lt (offset : Nat) (h : 0 < align) : roundUp offset align < offset + align := by
  have := Nat.div_mul_le_self (offset + align - 1) align
  unfold roundUp
  omega

/-- Two multiples of `align` in the window of `align` numbers from `offset` are equal, so the
rounded offset is the only multiple of the alignment in that window. -/
theorem eq_of_window {r r' : Nat} (hr : r % align = 0) (hr' : r' % align = 0)
    (hlo : offset ≤ r) (hhi : r < offset + align) (hlo' : offset ≤ r') (hhi' : r' < offset + align) :
    r = r' := by
  -- the difference is a multiple of the alignment and smaller than it
  have apart : ∀ {a b : Nat}, a % align = 0 → b % align = 0 → a ≤ b → b - a < align → a = b := by
    intro a b ha hb hab hlt
    have hdvd : align ∣ b - a := Nat.dvd_of_mod_eq_zero (Nat.sub_mod_eq_zero_of_mod_eq (hb.trans ha.symm))
    have := Nat.eq_zero_of_dvd_of_lt hdvd hlt
    omega
  rcases le_total r r' with hle | hle
  · exact apart hr hr' hle (by omega)
  · exact (apart hr' hr hle (by omega)).symm

/-- The word computation's rounding, a quotient rounded up times the alignment, is the rounding
up. -/
theorem divCeil_mul_eq_roundUp (h : 0 < align) : divCeil offset align * align = roundUp offset align := by
  have hdiv := Nat.div_add_mod offset align
  have hmod := Nat.mod_lt offset h
  -- the rounded quotient lands in the window of `align` numbers from `offset`
  have hhi : divCeil offset align * align < offset + align := by
    unfold divCeil
    split
    · rename_i h0
      rw [Nat.mul_comm]
      omega
    · rw [Nat.add_mul, Nat.one_mul, Nat.mul_comm]
      omega
  exact eq_of_window (Nat.mul_mod_left _ _) (roundUp_mod offset align) (le_mul_divCeil offset align h) hhi
    (le_roundUp offset h) (roundUp_lt offset h)

/-- A checked rounding succeeds exactly when the rounding up fits in a word, and then gives it. -/
theorem checkedAlignTo_eq_some_iff (h : 0 < align) {r : Nat} :
    checkedAlignTo offset align = some r ↔ r = roundUp offset align ∧ r ≤ max := by
  unfold checkedAlignTo
  rw [checkedMul_eq_some, divCeil_mul_eq_roundUp h]
  constructor
  · rintro ⟨hle, rfl⟩
    exact ⟨rfl, hle⟩
  · rintro ⟨rfl, hle⟩
    exact ⟨hle, rfl⟩

end RoundUp

end Word

theorem option_mapM_cons_eq_some {α β : Type} {g : α → Option β} {x : α} {xs : List α} {ys : List β} :
    (x :: xs).mapM g = some ys ↔ ∃ y ys', g x = some y ∧ xs.mapM g = some ys' ∧ ys = y :: ys' := by
  simp only [List.mapM_cons, Option.bind_eq_bind, Option.bind_eq_some_iff, Option.pure_def, Option.some.injEq]
  constructor
  · rintro ⟨y, hy, ys', hys', rfl⟩
    exact ⟨y, ys', hy, hys', rfl⟩
  · rintro ⟨y, ys', hy, hys', rfl⟩
    exact ⟨y, hy, ys', hys', rfl⟩

namespace ArgBufferLayout

/-! ## The rules -/

/-- The kind of slot a parameter gets: inline for a parameter passed by value, a local slot for a
pointer into local memory (holding the size of the memory when the launcher allocates it), a
pointer slot for any other pointer and a scalar slot for anything else. -/
def kindRule (c : DeviceConfig) (p : Param) : SlotKind :=
  if p.byValue then .byValue
  else match p.ty.pointerSpace with
    | some s => if s = c.addressSpaces.localSpace then .localMemory c.allocaLocals else .pointer
    | none => .scalar

/-- The slot the rules give a parameter, as its kind, size and alignment. A parameter gets one
when it is a by-value aggregate or a word passed directly, and its type's size fits in a word. The
size and alignment are the type's, except for a slot holding the size of local memory the launcher
allocates: it is as wide, and as aligned, as the wider of `size_t` and a pointer. -/
def shapeOf (c : DeviceConfig) (p : Param) : Option (SlotKind × Nat × Nat) :=
  if p.byValue = p.ty.isAggregate then
    (p.ty.checkedSize c.ptrBytes).map fun size =>
      match kindRule c p with
      | .localMemory true => (.localMemory true, max c.sizeTBytes c.ptrBytes, max c.sizeTBytes c.ptrBytes)
      | kind => (kind, size, p.ty.align c.ptrBytes)
  else none

/-- The slots the rules place for the given shapes, numbered from `index` and starting from
`offset`: each begins at the end of the one before it rounded up to its alignment. Answers the
slots and where the last one ends. -/
def exactSlots : List (SlotKind × Nat × Nat) → Nat → Nat → List ArgSlot × Nat
  | [], _, offset => ([], offset)
  | (kind, size, align) :: rest, index, offset =>
      let start := Word.roundUp offset align
      let (slots, stop) := exactSlots rest (index + 1) (start + size)
      ({ index, offset := start, size, align, kind } :: slots, stop)

/-- The largest of the alignments of the shapes and `start`. -/
def maxAlignOf (shapes : List (SlotKind × Nat × Nat)) (start : Nat) : Nat :=
  shapes.foldl (fun a s => max a s.2.2) start

/-- The layout the rules give a kernel whose parameters have the given shapes: the slots from
offset zero, aligned as the most aligned of them and at least to one byte, and a size that rounds
the end of the last slot up to that alignment. -/
def exactLayout (f : Function) (c : DeviceConfig) (shapes : List (SlotKind × Nat × Nat)) : ArgBufferLayout :=
  { kernel := f.name, slots := (exactSlots shapes 0 0).1,
    size := Word.roundUp (exactSlots shapes 0 0).2 (maxAlignOf shapes 1), align := maxAlignOf shapes 1,
    fingerprint := fingerprintOf f c }

/-- The layout the rules give a kernel on a device, when every parameter has a slot. -/
def exactLayout? (f : Function) (c : DeviceConfig) : Option ArgBufferLayout :=
  (f.params.mapM (shapeOf c)).map (exactLayout f c)

/-- What a well-laid-out buffer satisfies: its slots are numbered in order, each starts at a
multiple of its alignment, each ends before the next begins and inside the buffer, and the
buffer's size is a multiple of its alignment, which is at least one. -/
structure Sound (l : ArgBufferLayout) : Prop where
  indices : l.slots.map (·.index) = List.range l.slots.length
  aligned : ∀ sl ∈ l.slots, sl.offset % sl.align = 0
  ordered : l.slots.Pairwise (fun a b => a.offset + a.size ≤ b.offset)
  inside : ∀ sl ∈ l.slots, sl.offset + sl.size ≤ l.size
  size_aligned : l.size % l.align = 0
  align_pos : 0 < l.align

variable {f : Function} {c : DeviceConfig}

/-! ## The rules and the computation agree slot by slot -/

/-- A parameter has a slot by the rules exactly when it is passed by value if and only if it is an
aggregate, and its type's size fits in a word. -/
theorem isSome_shapeOf_iff {p : Param} :
    (shapeOf c p).isSome ↔ p.byValue = p.ty.isAggregate ∧ (p.ty.checkedSize c.ptrBytes).isSome := by
  unfold shapeOf
  by_cases h : p.byValue = p.ty.isAggregate <;> simp [h]

/-- The computation classifies a parameter as the rules do, and refuses exactly the parameters
passed by value that are not aggregates and the aggregates passed directly. -/
theorem kindOf_eq_ok_iff {p : Param} {k : SlotKind} :
    kindOf f c p = .ok k ↔ p.byValue = p.ty.isAggregate ∧ kindRule c p = k := by
  obtain ⟨name, ty, byValue⟩ := p
  cases byValue <;> cases ty <;> simp [kindOf, kindOf.refuse, kindRule, Ty.isAggregate, Ty.pointerSpace]

/-- A local slot belongs to a pointer into local memory, passed directly. -/
theorem ptr_of_kindRule {p : Param} {b : Bool} (h : kindRule c p = .localMemory b) :
    p.ty = .ptr c.addressSpaces.localSpace ∧ b = c.allocaLocals := by
  obtain ⟨name, ty, byValue⟩ := p
  cases byValue <;> cases ty <;> simp_all [kindRule, Ty.pointerSpace]
  split at h <;> simp_all

/-- The computation's kind and extent of a parameter are the rules' slot. -/
theorem shapeOf_of_extentOf {p : Param} {k : SlotKind} {size al : Nat} (hk : kindOf f c p = .ok k)
    (he : extentOf f c p k = .ok (size, al)) : shapeOf c p = some (k, size, al) := by
  obtain ⟨hpass, hrule⟩ := kindOf_eq_ok_iff.mp hk
  unfold shapeOf
  rw [if_pos hpass, hrule]
  cases k with
  | localMemory b =>
      obtain ⟨hptr, rfl⟩ := ptr_of_kindRule hrule
      cases hb : c.allocaLocals with
      | true =>
          -- the slot holds a size word, and the pointer's own size always fits
          simp only [hb, extentOf, Except.ok.injEq, Prod.mk.injEq] at he
          obtain ⟨rfl, rfl⟩ := he
          simp [hptr, Ty.checkedSize, Ty.scalarSize]
      | false =>
          simp only [hb, extentOf, hptr] at he ⊢
          simp only [Ty.checkedSize, Ty.scalarSize, Except.ok.injEq, Prod.mk.injEq] at he
          obtain ⟨rfl, rfl⟩ := he
          simp [Ty.checkedSize, Ty.scalarSize]
  | _ =>
      simp only [extentOf] at he
      split at he
      · rename_i s hs
        simp only [Except.ok.injEq, Prod.mk.injEq] at he
        obtain ⟨rfl, rfl⟩ := he
        simp [hs]
      · cases he

/-- The rules' slot of a parameter is the computation's kind and extent. -/
theorem extentOf_of_shapeOf {p : Param} {k : SlotKind} {size al : Nat} (h : shapeOf c p = some (k, size, al)) :
    kindOf f c p = .ok k ∧ extentOf f c p k = .ok (size, al) := by
  unfold shapeOf at h
  split at h
  · rename_i hpass
    obtain ⟨s, hs, hshape⟩ := Option.map_eq_some_iff.mp h
    have hk : kindOf f c p = .ok (kindRule c p) := kindOf_eq_ok_iff.mpr ⟨hpass, rfl⟩
    rcases hrule : kindRule c p with _ | _ | _ | ⟨_ | _⟩ <;>
      simp only [hrule, Prod.mk.injEq] at hshape <;> obtain ⟨rfl, rfl, rfl⟩ := hshape <;>
      simp [hk, hrule, extentOf, hs]
  · cases h

/-- A parameter's kind and extent by the computation are its slot by the rules. -/
theorem extentOf_iff_shapeOf {p : Param} {k : SlotKind} {size al : Nat} :
    (kindOf f c p = .ok k ∧ extentOf f c p k = .ok (size, al)) ↔ shapeOf c p = some (k, size, al) :=
  ⟨fun h => shapeOf_of_extentOf h.1 h.2, extentOf_of_shapeOf⟩

/-- On a device whose launcher-allocated local slots have a width, every slot the rules give is
aligned to at least one byte. -/
theorem align_pos_of_shapeOf (hw : c.allocaLocals = true → 0 < max c.sizeTBytes c.ptrBytes) {p : Param}
    {k : SlotKind} {size al : Nat} (h : shapeOf c p = some (k, size, al)) : 0 < al := by
  -- the computation for any kernel gives the parameter this slot
  have hke : kindOf default c p = .ok k ∧ extentOf default c p k = .ok (size, al) := extentOf_of_shapeOf h
  exact one_le_align_of_extentOf hw hke.1 hke.2

/-- Every slot the rules give a list of parameters is aligned to at least one byte, on a device
whose launcher-allocated local slots have a width. -/
theorem align_pos_of_mapM (hw : c.allocaLocals = true → 0 < max c.sizeTBytes c.ptrBytes) :
    ∀ {ps : List Param} {shapes : List (SlotKind × Nat × Nat)}, ps.mapM (shapeOf c) = some shapes →
      ∀ s ∈ shapes, 0 < s.2.2
  | [], shapes, h, s, hs => by
      simp only [List.mapM_nil, Option.pure_def, Option.some.injEq] at h
      subst h
      cases hs
  | p :: ps, shapes, h, s, hs => by
      obtain ⟨⟨k, size, al⟩, shapes', hsh, hmap', rfl⟩ := option_mapM_cons_eq_some.mp h
      rcases List.mem_cons.mp hs with rfl | hs
      · exact align_pos_of_shapeOf hw hsh
      · exact align_pos_of_mapM hw hmap' s hs

/-! ## The exact placement -/

section Exact

variable {shapes : List (SlotKind × Nat × Nat)}

/-- The placed slots end at or after where placing started, when every shape is aligned to at
least one byte. -/
theorem le_exactSlots : ∀ (shapes : List (SlotKind × Nat × Nat)) (index offset : Nat),
    (∀ s ∈ shapes, 0 < s.2.2) → offset ≤ (exactSlots shapes index offset).2
  | [], _, _, _ => le_refl _
  | (k, size, al) :: rest, index, offset, hpos => by
      have hstart : offset ≤ Word.roundUp offset al := Word.le_roundUp offset (hpos _ List.mem_cons_self)
      have := le_exactSlots rest (index + 1) (Word.roundUp offset al + size)
        fun s hs => hpos s (List.mem_cons_of_mem _ hs)
      simp only [exactSlots]
      omega

/-- The placed slots of shapes aligned to at least one byte: numbered from `index`, each carrying
its shape, starting at a multiple of its alignment at or after `offset`, ending at or before the
end, and each ending before the next begins. -/
theorem exactSlots_sound : ∀ (shapes : List (SlotKind × Nat × Nat)) (index offset : Nat),
    (∀ s ∈ shapes, 0 < s.2.2) →
    (exactSlots shapes index offset).1.map (·.index) = List.range' index shapes.length ∧
      (exactSlots shapes index offset).1.map (fun sl => (sl.kind, sl.size, sl.align)) = shapes ∧
      (∀ sl ∈ (exactSlots shapes index offset).1, sl.offset % sl.align = 0 ∧ offset ≤ sl.offset ∧
        sl.offset + sl.size ≤ (exactSlots shapes index offset).2) ∧
      (exactSlots shapes index offset).1.Pairwise (fun a b => a.offset + a.size ≤ b.offset)
  | [], _, _, _ => by simp [exactSlots]
  | (k, size, al) :: rest, index, offset, hpos => by
      have hal : 0 < al := hpos _ List.mem_cons_self
      obtain ⟨hidx, hshape, hin, hpair⟩ :=
        exactSlots_sound rest (index + 1) (Word.roundUp offset al + size) fun s hs => hpos s (List.mem_cons_of_mem _ hs)
      have hstart := Word.le_roundUp offset hal
      have hend := le_exactSlots rest (index + 1) (Word.roundUp offset al + size)
        fun s hs => hpos s (List.mem_cons_of_mem _ hs)
      simp only [exactSlots, List.map_cons, List.length_cons, List.mem_cons, List.pairwise_cons]
      refine ⟨by simp [hidx, List.range'_succ], by simp [hshape], ?_, ⟨fun sl hsl => (hin sl hsl).2.1, hpair⟩⟩
      rintro sl (rfl | hsl)
      · exact ⟨Word.roundUp_mod offset al, hstart, hend⟩
      · obtain ⟨h₁, h₂, h₃⟩ := hin sl hsl
        exact ⟨h₁, by omega, h₃⟩

theorem maxAlignOf_cons (s : SlotKind × Nat × Nat) (shapes : List (SlotKind × Nat × Nat)) (start : Nat) :
    maxAlignOf (s :: shapes) start = maxAlignOf shapes (max start s.2.2) := rfl

theorem le_maxAlignOf : ∀ (shapes : List (SlotKind × Nat × Nat)) (start : Nat), start ≤ maxAlignOf shapes start
  | [], _ => le_refl _
  | s :: shapes, start => (le_max_left start s.2.2).trans (le_maxAlignOf shapes _)

/-- The layout the rules give, from shapes aligned to at least one byte, is sound. -/
theorem exactLayout_sound (hpos : ∀ s ∈ shapes, 0 < s.2.2) : (exactLayout f c shapes).Sound := by
  obtain ⟨hidx, -, hin, hpair⟩ := exactSlots_sound shapes 0 0 hpos
  have halign : 0 < maxAlignOf shapes 1 := le_maxAlignOf shapes 1
  have hlen : (exactSlots shapes 0 0).1.length = shapes.length := by simpa using congrArg List.length hidx
  refine ⟨?_, fun sl hsl => (hin sl hsl).1, hpair, fun sl hsl => ?_, Word.roundUp_mod _ _, halign⟩
  · simp only [exactLayout, hlen, hidx, List.range_eq_range']
  · exact (hin sl hsl).2.2.trans (Word.le_roundUp _ halign)

end Exact

/-! ## The computation follows the rules -/

/-- A parameter with a kind, an extent of positive alignment, and a start and end in the word
range goes in front of the slots placed after it. -/
theorem place_cons_eq {p : Param} {ps : List Param} {index offset maxAlign size align start stop : Nat}
    {kind : SlotKind} (hk : kindOf f c p = .ok kind) (he : extentOf f c p kind = .ok (size, align))
    (hal : align ≠ 0) (hs : Word.checkedAlignTo offset align = some start)
    (hstop : Word.checkedAdd start size = some stop) :
    place f c (p :: ps) index offset maxAlign = (place f c ps (index + 1) stop (max maxAlign align)).map
      (Except.map fun (rest, stopAll, alignAll) =>
        ({ index, offset := start, size, align, kind } :: rest, stopAll, alignAll)) := by
  simp [place, hk, he, hal, hs, hstop]

/-- Parameters are placed from an offset in the word range exactly when each has a slot by the
rules and the exact placement ends inside the word range; the slots and end are then the exact
ones, and the alignment the largest met. Every word the placement checks lies between the offset
and the exact end. -/
theorem place_eq_ok_iff (hw : c.allocaLocals = true → 0 < max c.sizeTBytes c.ptrBytes) :
    ∀ (ps : List Param) (index offset maxAlign : Nat) {slots : List ArgSlot} {stop al : Nat},
      offset ≤ Word.max →
      (place f c ps index offset maxAlign = .ok (.ok (slots, stop, al)) ↔
        ∃ shapes, ps.mapM (shapeOf c) = some shapes ∧ exactSlots shapes index offset = (slots, stop) ∧
          al = maxAlignOf shapes maxAlign ∧ stop ≤ Word.max)
  | [], index, offset, maxAlign, slots, stop, al, hoff => by
      simp only [place, pure, Except.pure, Except.ok.injEq, Prod.mk.injEq, List.mapM_nil,
        Option.some.injEq, exists_eq_left', exactSlots, maxAlignOf, List.foldl_nil]
      constructor
      · rintro ⟨rfl, rfl, rfl⟩
        exact ⟨⟨rfl, rfl⟩, rfl, hoff⟩
      · rintro ⟨⟨rfl, rfl⟩, rfl, -⟩
        exact ⟨rfl, rfl, rfl⟩
  | p :: ps, index, offset, maxAlign, slots, stop, al, hoff => by
      constructor
      · intro h
        obtain ⟨kind, size, align, start, stop₁, rest, hk, he, hal, hs, hstop, hrest, rfl⟩ := place_cons_eq_ok h
        obtain ⟨hstart, -⟩ := (Word.checkedAlignTo_eq_some_iff (Nat.pos_of_ne_zero hal)).mp hs
        obtain ⟨hfit, rfl⟩ := Word.checkedAdd_eq_some.mp hstop
        obtain ⟨shapes, hmap, hex, hal', hle⟩ := (place_eq_ok_iff hw ps (index + 1) _ _ hfit).mp hrest
        refine ⟨(kind, size, align) :: shapes,
          option_mapM_cons_eq_some.mpr ⟨_, _, shapeOf_of_extentOf hk he, hmap, rfl⟩, ?_, hal', hle⟩
        simp only [exactSlots, ← hstart, hex]
      · rintro ⟨shapes, hmap, hex, rfl, hle⟩
        obtain ⟨⟨kind, size, align⟩, shapes', hsh, hmap', rfl⟩ := option_mapM_cons_eq_some.mp hmap
        have hke : kindOf f c p = .ok kind ∧ extentOf f c p kind = .ok (size, align) := extentOf_of_shapeOf hsh
        have hal : 0 < align := align_pos_of_shapeOf hw hsh
        simp only [exactSlots, Prod.mk.injEq] at hex
        obtain ⟨rfl, rfl⟩ := hex
        -- the slot's start and end lie at or below the end of the whole placement
        have hend := le_exactSlots shapes' (index + 1) (Word.roundUp offset align + size)
          (align_pos_of_mapM hw hmap')
        have hs : Word.checkedAlignTo offset align = some (Word.roundUp offset align) :=
          (Word.checkedAlignTo_eq_some_iff hal).mpr ⟨rfl, by omega⟩
        have hstop : Word.checkedAdd (Word.roundUp offset align) size = some (Word.roundUp offset align + size) :=
          Word.checkedAdd_eq_some.mpr ⟨by omega, rfl⟩
        have hrest := (place_eq_ok_iff hw ps (index + 1) (Word.roundUp offset align + size) (max maxAlign align)
          (by omega)).mpr ⟨shapes', hmap', rfl, rfl, hle⟩
        rw [place_cons_eq hke.1 hke.2 hal.ne' hs hstop, hrest]
        rfl

/-- A layout is computed exactly when every parameter has a slot by the rules and the buffer the
rules give fits in a word; the layout is then that buffer. -/
theorem compute_eq_ok_iff (hw : c.allocaLocals = true → 0 < max c.sizeTBytes c.ptrBytes) {l : ArgBufferLayout} :
    compute f c = .ok (.ok l) ↔ exactLayout? f c = some l ∧ l.size ≤ Word.max := by
  constructor
  · intro h
    obtain ⟨stop, hplace, hsize, hkernel, hfp⟩ := compute_eq_ok_place h
    obtain ⟨shapes, hmap, hex, hal, -⟩ := (place_eq_ok_iff hw f.params 0 0 1 (Nat.zero_le _)).mp hplace
    have hpos : 0 < l.align := hal ▸ le_maxAlignOf shapes 1
    obtain ⟨hround, hfit⟩ := (Word.checkedAlignTo_eq_some_iff hpos).mp hsize
    refine ⟨?_, hfit⟩
    simp only [exactLayout?, hmap, Option.map_some, Option.some.injEq]
    obtain ⟨kernel, slots, size, align, fingerprint⟩ := l
    simp only at hex hal hround hkernel hfp
    simp [exactLayout, hex, hal, hround, hkernel, hfp]
  · rintro ⟨hexact, hfit⟩
    obtain ⟨shapes, hmap, rfl⟩ := Option.map_eq_some_iff.mp hexact
    have hpos : 0 < maxAlignOf shapes 1 := le_maxAlignOf shapes 1
    -- the end of the last slot lies below the rounded size, so it fits as well
    have hstop : (exactSlots shapes 0 0).2 ≤ Word.max := (Word.le_roundUp _ hpos).trans hfit
    have hplace : place f c f.params 0 0 1 =
        .ok (.ok ((exactSlots shapes 0 0).1, (exactSlots shapes 0 0).2, maxAlignOf shapes 1)) :=
      (place_eq_ok_iff hw f.params 0 0 1 (Nat.zero_le _)).mpr ⟨shapes, hmap, rfl, rfl, hstop⟩
    have hsize : Word.checkedAlignTo (exactSlots shapes 0 0).2 (maxAlignOf shapes 1) =
        some (Word.roundUp (exactSlots shapes 0 0).2 (maxAlignOf shapes 1)) :=
      (Word.checkedAlignTo_eq_some_iff hpos).mpr ⟨rfl, hfit⟩
    simp only [compute, hplace, Except.map, hsize]
    rfl

/-- Every parameter has a slot by the rules exactly when each is passed by value if and only if it
is an aggregate, and each type's size fits in a word. -/
theorem isSome_exactLayout?_iff :
    (exactLayout? f c).isSome ↔ ∀ p ∈ f.params, p.byValue = p.ty.isAggregate ∧ (p.ty.checkedSize c.ptrBytes).isSome := by
  unfold exactLayout?
  rw [Option.isSome_map]
  -- a list of parameters has slots when each of them has one
  suffices h : ∀ ps : List Param, (ps.mapM (shapeOf c)).isSome ↔ ∀ p ∈ ps, (shapeOf c p).isSome by
    simp only [h, isSome_shapeOf_iff]
  intro ps
  induction ps with
  | nil => simp
  | cons p ps ih =>
      simp only [List.mapM_cons, Option.bind_eq_bind, Option.pure_def, List.mem_cons, forall_eq_or_imp, ← ih]
      rcases shapeOf c p with _ | sh <;> rcases ps.mapM (shapeOf c) with _ | shs <;> simp

/-- The layout the rules give on a device whose launcher-allocated local slots have a width is
sound. -/
theorem exactLayout?_sound (hw : c.allocaLocals = true → 0 < max c.sizeTBytes c.ptrBytes) {l : ArgBufferLayout}
    (h : exactLayout? f c = some l) : l.Sound := by
  obtain ⟨shapes, hmap, rfl⟩ := Option.map_eq_some_iff.mp h
  exact exactLayout_sound (align_pos_of_mapM hw hmap)

/-! ## The one fault -/

/-- A slot of zero alignment holds the size of local memory the launcher allocates, on a device
whose `size_t` and pointers are both under a byte wide. -/
theorem extentOf_eq_align_zero {p : Param} {k : SlotKind} {size : Nat} (hk : kindOf f c p = .ok k)
    (h : extentOf f c p k = .ok (size, 0)) :
    k = .localMemory true ∧ c.allocaLocals = true ∧ max c.sizeTBytes c.ptrBytes = 0 := by
  unfold extentOf at h
  split at h
  · obtain ⟨-, hw⟩ := Prod.mk.inj (Except.ok.inj h)
    exact ⟨rfl, allocaLocals_of_kindOf hk, hw⟩
  · split at h
    · have := Ty.one_le_align c.ptrBytes p.ty
      simp only [Except.ok.injEq, Prod.mk.injEq] at h
      omega
    · cases h

/-- Placing parameters faults only by dividing by zero, at a parameter whose slot holds the size of
launcher-allocated local memory on a device whose widths are both under a byte. -/
theorem place_eq_error :
    ∀ (ps : List Param) (index offset maxAlign : Nat) {e : Fault}, place f c ps index offset maxAlign = .error e →
      e = .divideByZero ∧ c.allocaLocals = true ∧ max c.sizeTBytes c.ptrBytes = 0 ∧
        ∃ p ∈ ps, kindOf f c p = .ok (.localMemory true)
  | [], _, _, _, _, h => by cases h
  | p :: ps, index, offset, maxAlign, e, h => by
      rcases hk : kindOf f c p with d | kind
      · simp [place, hk] at h
        cases h
      rcases he : extentOf f c p kind with d | ⟨size, align⟩
      · simp [place, hk, he] at h
        cases h
      by_cases hal : align = 0
      · -- the parameter itself is where the division by zero happens
        subst hal
        obtain ⟨rfl, halloca, hw⟩ := extentOf_eq_align_zero hk he
        simp only [place, hk, he, if_true] at h
        exact ⟨(Except.error.inj h).symm, halloca, hw, p, List.mem_cons_self, hk⟩
      rcases hs : Word.checkedAlignTo offset align with _ | start
      · simp [place, hk, he, hal, hs] at h
        cases h
      rcases hstop : Word.checkedAdd start size with _ | stop
      · simp [place, hk, he, hal, hs, hstop] at h
        cases h
      -- otherwise the fault comes from a later parameter
      rcases hrest : place f c ps (index + 1) stop (max maxAlign align) with e' | r
      · rw [place_cons_eq hk he hal hs hstop, hrest] at h
        obtain rfl : e' = e := Except.error.inj h
        obtain ⟨hdiv, halloca, hw, q, hq, hkq⟩ := place_eq_error ps (index + 1) stop (max maxAlign align) hrest
        exact ⟨hdiv, halloca, hw, q, List.mem_cons_of_mem _ hq, hkq⟩
      · rw [place_cons_eq hk he hal hs hstop, hrest] at h
        cases h

/-- Computing a layout stops the program only by dividing by zero, on a device that allocates
local memory in the launcher and whose `size_t` and pointers are both under a byte wide, for a
kernel taking a pointer into local memory. -/
theorem compute_eq_error {e : Fault} (h : compute f c = .error e) :
    e = .divideByZero ∧ c.allocaLocals = true ∧ max c.sizeTBytes c.ptrBytes = 0 ∧
      ∃ p ∈ f.params, kindOf f c p = .ok (.localMemory true) := by
  rcases hplace : place f c f.params 0 0 1 with e' | r
  · rw [compute, hplace] at h
    obtain rfl : e' = e := Except.error.inj h
    exact place_eq_error f.params 0 0 1 hplace
  · rw [compute, hplace] at h
    cases h

/-- On a device whose launcher-allocated local slots have a width, computing a layout meets no
fault; it answers a layout exactly when the layout rules give one that fits in a word, namely when
every parameter is a by-value aggregate or a word passed directly, with a size that fits, and the
whole buffer fits; and the layout it answers is the rules' one: slot `i` is parameter `i`'s, at
the end of slot `i - 1` rounded up to its alignment, the buffer's size is the end of the last slot
rounded up to the largest alignment, and the slots are aligned, in order, apart and inside it. -/
theorem compute_follows_rules (f : Function) (c : DeviceConfig)
    (hw : c.allocaLocals = true → 0 < max c.sizeTBytes c.ptrBytes) :
    (∃ r, compute f c = .ok r) ∧
      ((exactLayout? f c).isSome ↔
        ∀ p ∈ f.params, p.byValue = p.ty.isAggregate ∧ (p.ty.checkedSize c.ptrBytes).isSome) ∧
      (∀ l, compute f c = .ok (.ok l) ↔ exactLayout? f c = some l ∧ l.size ≤ Word.max) ∧
      ∀ l, exactLayout? f c = some l → l.Sound :=
  ⟨compute_ok hw, isSome_exactLayout?_iff, fun _ => compute_eq_ok_iff hw, fun _ => exactLayout?_sound hw⟩

/-- A kernel with a scratch buffer in local memory, a count and an aggregate passed by value. -/
def scratchKernel : Function :=
  { name := "k",
    params := [{ name := "scratch", ty := .ptr 3 }, { name := "n", ty := .i32 },
      { name := "s", ty := .struct [.i8, .i64], byValue := true }],
    body := some [.ret], attrs := { kernel := true } }

theorem compute_follows_rules_scratchKernel :
    (DeviceConfig.accel.allocaLocals = true → 0 < max DeviceConfig.accel.sizeTBytes DeviceConfig.accel.ptrBytes) ∧
      ∀ l, compute scratchKernel DeviceConfig.accel = .ok (.ok l) ↔
        exactLayout? scratchKernel DeviceConfig.accel = some l ∧ l.size ≤ Word.max :=
  ⟨by decide, (compute_follows_rules scratchKernel DeviceConfig.accel (by decide)).2.2.1⟩

end ArgBufferLayout

end KernelLaunch
