import KernelLaunch.Proofs.Context.Record
import KernelLaunch.Layout.ArgBuffer
/-!
# Where the arguments lie in a buffer

`ArgBufferLayout.compute` gives each parameter of a kernel one slot, in order: the `i`-th slot is
the `i`-th parameter's, of the kind and extent that the parameter's type and passing mode give
(`SlotOf`). Each slot starts at or after the end of the one before it and ends inside the buffer
and inside the word range (`compute_eq_ok`), so writes into different slots never touch each
other's bytes. What a slot's kind says of its parameter's type, and how wide the slot is, follows
from `kindOf` and `extentOf` alone (`SlotOf.scalar`, `SlotOf.pointer`, `SlotOf.localMemory`).
-/

namespace KernelLaunch

namespace ArgBufferLayout

variable {f : Function} {c : DeviceConfig}

/-- The slot `sl` carries the parameter `p` of `f`: its kind, size and alignment are those the
parameter gets on the device. -/
def SlotOf (f : Function) (c : DeviceConfig) (p : Param) (sl : ArgSlot) : Prop :=
  kindOf f c p = .ok sl.kind ∧ extentOf f c p sl.kind = .ok (sl.size, sl.align)

/-- Only a device whose launchers allocate local memory gives a parameter a slot for the size of
local memory to allocate. -/
theorem allocaLocals_of_kindOf {p : Param} (h : kindOf f c p = .ok (.localMemory true)) :
    c.allocaLocals = true := by
  unfold kindOf at h
  split at h
  · cases h
  · split at h
    · split at h
      · rename_i s
        split at h <;> simp_all
      · split at h <;> simp_all [kindOf.refuse]
    · cases h

/-- A slot is aligned to at least one byte, so rounding its start up never moves it back, unless
it holds the size of local memory the launcher allocates on a device whose `size_t` and pointers
are both under a byte wide. -/
theorem one_le_align_of_extentOf (hw : c.allocaLocals = true → 0 < max c.sizeTBytes c.ptrBytes)
    {p : Param} {k : SlotKind} {size al : Nat} (hk : kindOf f c p = .ok k)
    (h : extentOf f c p k = .ok (size, al)) : 1 ≤ al := by
  unfold extentOf at h
  split at h
  · cases h
    exact hw (allocaLocals_of_kindOf hk)
  · split at h
    · cases h
      exact Ty.one_le_align _ _
    · cases h

/-- Placing parameters meets no fault when no slot can get a zero alignment. -/
theorem place_ok (hw : c.allocaLocals = true → 0 < max c.sizeTBytes c.ptrBytes) :
    ∀ (ps : List Param) (index offset maxAlign : Nat), ∃ r, place f c ps index offset maxAlign = .ok r
  | [], _, _, _ => ⟨_, rfl⟩
  | p :: ps, index, offset, maxAlign => by
      rcases hk : kindOf f c p with d | kind
      · exact ⟨_, by simp [place, hk]; rfl⟩
      rcases he : extentOf f c p kind with d | ⟨size, align⟩
      · exact ⟨_, by simp [place, hk, he]; rfl⟩
      have hal : align ≠ 0 := Nat.one_le_iff_ne_zero.mp (one_le_align_of_extentOf hw hk he)
      rcases hs : Word.checkedAlignTo offset align with _ | start
      · exact ⟨_, by simp [place, hk, he, hal, hs]; rfl⟩
      rcases hstop : Word.checkedAdd start size with _ | stop
      · exact ⟨_, by simp [place, hk, he, hal, hs, hstop]; rfl⟩
      obtain ⟨r, hr⟩ := place_ok hw ps (index + 1) stop (max maxAlign align)
      exact ⟨_, by simp [place, hk, he, hal, hs, hstop, hr]; rfl⟩

/-- Computing a layout meets no fault when no slot can get a zero alignment. -/
theorem compute_ok (hw : c.allocaLocals = true → 0 < max c.sizeTBytes c.ptrBytes) :
    ∃ r, compute f c = .ok r := by
  obtain ⟨r, hr⟩ := place_ok hw f.params 0 0 1
  exact ⟨_, by rw [compute, hr]; rfl⟩

/-- A parameter is placed when it has a kind and an extent with a positive alignment, the slot's
start and end stay in the word range, and the parameters after it are placed from its end. -/
theorem place_cons_eq_ok {p : Param} {ps : List Param} {index offset maxAlign : Nat} {slots : List ArgSlot}
    {stop al : Nat} (h : place f c (p :: ps) index offset maxAlign = .ok (.ok (slots, stop, al))) :
    ∃ kind size align start stop₁ rest, kindOf f c p = .ok kind ∧ extentOf f c p kind = .ok (size, align) ∧
      align ≠ 0 ∧ Word.checkedAlignTo offset align = some start ∧ Word.checkedAdd start size = some stop₁ ∧
      place f c ps (index + 1) stop₁ (max maxAlign align) = .ok (.ok (rest, stop, al)) ∧
      slots = { index, offset := start, size, align, kind } :: rest := by
  simp only [place] at h
  rcases hk : kindOf f c p with d | kind
  · simp [hk, pure, Except.pure] at h
  rcases he : extentOf f c p kind with d | ⟨size, align⟩
  · simp [hk, he, pure, Except.pure] at h
  by_cases hal : align = 0
  · simp [hk, he, hal, throw, throwThe, MonadExceptOf.throw] at h
  rcases hs : Word.checkedAlignTo offset align with _ | start
  · simp [hk, he, hal, hs, pure, Except.pure] at h
  rcases hstop : Word.checkedAdd start size with _ | stop₁
  · simp [hk, he, hal, hs, hstop, pure, Except.pure] at h
  simp only [hk, he, hal, hs, hstop, if_false] at h
  -- the rest was placed, and the slot goes in front of it
  rcases hrest : place f c ps (index + 1) stop₁ (max maxAlign align) with fault | d | ⟨rest, stopAll, alignAll⟩
  · simp [hrest, Except.map] at h
  · simp [hrest, Except.map] at h
  · simp only [hrest, Except.map, Except.ok.injEq, Prod.mk.injEq] at h
    obtain ⟨rfl, rfl, rfl⟩ := h
    exact ⟨kind, size, align, start, stop₁, rest, rfl, he, hal, hs, hstop, hrest, rfl⟩

/-- The slots placed from `index` and `offset` on: one per parameter, numbered in order, each
carrying its parameter, starting at or after `offset` and the end of the slot before, and ending
by `stop`, inside the word range. -/
theorem place_eq_ok :
    ∀ (ps : List Param) (index offset maxAlign : Nat) {slots : List ArgSlot} {stop al : Nat},
      place f c ps index offset maxAlign = .ok (.ok (slots, stop, al)) →
      slots.map (·.index) = List.range' index ps.length ∧ List.Forall₂ (SlotOf f c) ps slots ∧
        offset ≤ stop ∧ maxAlign ≤ al ∧ (∀ sl ∈ slots, offset ≤ sl.offset ∧ sl.offset + sl.size ≤ stop ∧
          sl.offset + sl.size ≤ Word.max) ∧
        slots.Pairwise (fun a b => a.offset + a.size ≤ b.offset)
  | [], index, offset, maxAlign, slots, stop, al, h => by
      simp only [place, pure, Except.pure, Except.ok.injEq, Prod.mk.injEq] at h
      obtain ⟨rfl, rfl, rfl⟩ := h
      simp
  | p :: ps, index, offset, maxAlign, slots, stop, al, h => by
      obtain ⟨kind, size, align, start, stop₁, rest, hkind, hext, hal, hs, he, hrest, rfl⟩ := place_cons_eq_ok h
      -- the slot starts at the aligned offset and ends before the word range does
      have hstart' : offset ≤ start := (Word.checkedAlignTo_spec (Nat.pos_of_ne_zero hal) hs).1
      have hstop' : start + size ≤ Word.max ∧ start + size = stop₁ := Word.checkedAdd_eq_some.mp he
      obtain ⟨hidx, hof, hle, hal', hin, hpair⟩ := place_eq_ok ps (index + 1) stop₁ _ hrest
      refine ⟨?_, .cons ⟨hkind, hext⟩ hof, by omega, le_of_max_le_left hal', ?_, ?_⟩
      · simp [hidx, List.range'_succ]
      · intro sl hsl
        rcases List.mem_cons.mp hsl with rfl | hsl
        · exact ⟨hstart', by dsimp only; omega, hstop'.1⟩
        · obtain ⟨h₁, h₂, h₃⟩ := hin sl hsl
          exact ⟨by omega, h₂, h₃⟩
      · refine List.pairwise_cons.mpr ⟨fun sl hsl => ?_, hpair⟩
        have := (hin sl hsl).1
        dsimp only
        omega

/-- A computed layout comes from placing the kernel's parameters from offset zero with alignment
one, and its size is the end of the last slot rounded up to the largest alignment. -/
theorem compute_eq_ok_place {l : ArgBufferLayout} (h : compute f c = .ok (.ok l)) :
    ∃ stop, place f c f.params 0 0 1 = .ok (.ok (l.slots, stop, l.align)) ∧
      Word.checkedAlignTo stop l.align = some l.size ∧ l.kernel = f.name ∧ l.fingerprint = fingerprintOf f c := by
  unfold compute at h
  rcases hp : place f c f.params 0 0 1 with fault | d | ⟨slots, stop, al⟩
  · simp [hp, Except.map] at h
  · simp [hp, Except.map] at h
  rcases hsize : Word.checkedAlignTo stop al with _ | size
  · simp [hp, hsize, Except.map] at h
  · simp only [hp, hsize, Except.map, Except.ok.injEq] at h
    subst h
    exact ⟨stop, rfl, hsize, rfl, rfl⟩

/-- A computed layout has one slot per parameter of the kernel, numbered in order, each carrying
its parameter; the slots follow one another without overlap and end inside the buffer and inside
the word range. -/
theorem compute_eq_ok {l : ArgBufferLayout} (h : compute f c = .ok (.ok l)) :
    l.slots.map (·.index) = List.range f.params.length ∧ List.Forall₂ (SlotOf f c) f.params l.slots ∧
      (∀ sl ∈ l.slots, sl.offset + sl.size ≤ l.size ∧ sl.offset + sl.size ≤ Word.max) ∧
      l.slots.Pairwise (fun a b => a.offset + a.size ≤ b.offset) := by
  obtain ⟨stop, hplace, hsize, -, -⟩ := compute_eq_ok_place h
  obtain ⟨hidx, hof, -, hal, hin, hpair⟩ := place_eq_ok f.params 0 0 1 hplace
  -- rounding the end up to the largest alignment keeps every slot inside
  refine ⟨by simpa [List.range_eq_range'] using hidx, hof, fun sl hsl => ?_, hpair⟩
  obtain ⟨-, h₂, h₃⟩ := hin sl hsl
  exact ⟨h₂.trans (Word.checkedAlignTo_spec hal hsize).1, h₃⟩

namespace SlotOf

variable {p : Param} {sl : ArgSlot}

/-- A scalar slot carries a parameter of a word type, as wide as the type. -/
theorem scalar (h : SlotOf f c p sl) (hk : sl.kind = .scalar) :
    p.ty.isAggregate = false ∧ p.ty.pointerSpace = none ∧ sl.size = p.ty.size c.ptrBytes := by
  obtain ⟨hkind, hext⟩ := h
  rw [hk] at hkind hext
  obtain ⟨name, ty, byValue⟩ := p
  -- only a word type passed directly gets a scalar slot
  have hty : ty.isAggregate = false ∧ ty.pointerSpace = none := by
    cases byValue <;> cases ty <;> simp_all [kindOf, kindOf.refuse, Ty.isAggregate, Ty.pointerSpace]
    -- a pointer gets a pointer or local-memory slot
    split at hkind <;> cases hkind
  refine ⟨hty.1, hty.2, ?_⟩
  simp only [extentOf] at hext
  split at hext
  · rename_i sz hsz
    simp only [Except.ok.injEq, Prod.mk.injEq] at hext
    simp [Ty.size, hsz, hext.1]
  · cases hext

/-- A pointer slot carries a pointer parameter, one pointer wide. -/
theorem pointer (h : SlotOf f c p sl) (hk : sl.kind = .pointer) :
    ∃ sp, p.ty = .ptr sp ∧ sl.size = c.ptrBytes := by
  obtain ⟨hkind, hext⟩ := h
  rw [hk] at hkind hext
  obtain ⟨name, ty, byValue⟩ := p
  have hty : ∃ sp, ty = .ptr sp := by
    cases byValue <;> cases ty <;> simp_all [kindOf, kindOf.refuse, Ty.isAggregate]
  obtain ⟨sp, rfl⟩ := hty
  simp only [extentOf, Ty.checkedSize, Ty.scalarSize, Except.ok.injEq, Prod.mk.injEq] at hext
  exact ⟨sp, rfl, hext.1.symm⟩

/-- A local-memory slot carries a pointer into local memory; the device says whether the launcher
allocates the memory, and the slot is a pointer wide, or as wide as the wider of `size_t` and a
pointer when it holds the size of memory the launcher allocates. -/
theorem localMemory {b : Bool} (h : SlotOf f c p sl) (hk : sl.kind = .localMemory b) :
    p.ty = c.localPtr ∧ b = c.allocaLocals ∧
      sl.size = if b then max c.sizeTBytes c.ptrBytes else c.ptrBytes := by
  obtain ⟨hkind, hext⟩ := h
  rw [hk] at hkind hext
  obtain ⟨name, ty, byValue⟩ := p
  have hty : ty = c.localPtr ∧ b = c.allocaLocals := by
    cases byValue <;> cases ty <;> simp_all [kindOf, kindOf.refuse, Ty.isAggregate, DeviceConfig.localPtr]
    split at hkind <;> simp_all
  obtain ⟨rfl, rfl⟩ := hty
  refine ⟨rfl, rfl, ?_⟩
  cases hb : c.allocaLocals with
  | true =>
      simp only [hb, extentOf, Except.ok.injEq, Prod.mk.injEq] at hext
      simp [hext.1]
  | false =>
      simp only [hb, extentOf, DeviceConfig.localPtr, Ty.checkedSize, Ty.scalarSize, Except.ok.injEq,
        Prod.mk.injEq] at hext
      simp [hext.1]

/-- On a validated device every slot but an aggregate's is one, two, four or eight bytes wide. -/
theorem size_mem (hc : c.validate = none) (h : SlotOf f c p sl) (hk : sl.kind ≠ .byValue) :
    sl.size ∈ [1, 2, 4, 8] := by
  obtain ⟨hst, hab, -⟩ := c.widths_of_validate hc
  have hptr : c.ptrBytes = 4 ∨ c.ptrBytes = 8 := by
    rcases hab with h | h <;> simp [DeviceConfig.ptrBytes, h]
  have hsizeT : c.sizeTBytes = 4 ∨ c.sizeTBytes = 8 := by
    rcases hst with h | h <;> simp [DeviceConfig.sizeTBytes, h]
  rcases hkind : sl.kind with _ | _ | _ | ⟨_ | _⟩
  · obtain ⟨hagg, hps, hsize⟩ := h.scalar hkind
    rw [hsize]
    cases hty : p.ty <;> simp_all [Ty.size, Ty.checkedSize, Ty.scalarSize, Ty.isAggregate, Ty.pointerSpace]
  · obtain ⟨-, -, hsize⟩ := h.pointer hkind
    rcases hptr with h | h <;> simp [hsize, h]
  · exact absurd hkind hk
  · obtain ⟨-, -, hsize⟩ := h.localMemory hkind
    rcases hptr with h | h <;> simp [hsize, h]
  · obtain ⟨-, -, hsize⟩ := h.localMemory hkind
    rcases hptr with h | h <;> rcases hsizeT with h' | h' <;> simp [hsize, h, h']

end SlotOf

end ArgBufferLayout

end KernelLaunch
