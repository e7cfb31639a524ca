import KernelLaunch.Proofs.Launch.LocalMemory
import KernelLaunch.Proofs.Context.Placement
/-!
# The packed argument buffer

`ArgBufferLayout.pack` lays host bytes into a zeroed buffer, one argument per slot. It fails
exactly when the number of arguments or the length of one of them does not match the layout
(`pack_eq_ok_iff`, `pack_fails_iff`). On a computed layout it succeeds with a buffer of the
layout's size in which every slot holds its argument and every other byte is zero
(`pack_of_compute`).

The interpreter's host packs run-time values another way (`Harness.argBuffer`): it writes each
value in place, as a word of the slot's width, as the stored form of a pointer, or as the bytes an
aggregate's pointer points at. Both reach the same buffer: `argBuffer` succeeds exactly when every
value has an encoding (`slotEncoding`), and the region it makes then holds `pack` applied to the
encodings (`run_argBuffer_eq_ok_iff`). `pack_agrees_with_argBuffer` states the two laws together.
-/

namespace KernelLaunch

/-! ## Folds that stop at the first failing step -/

/-- A fold in `Except` whose every step either fails or answers a pure function of the state
succeeds exactly when no step fails, and then answers the pure fold. -/
theorem except_foldlM_eq_ok_iff {ε α β : Type} {f : β → α → Except ε β} {ok : α → Prop} {g : β → α → β}
    (hf : ∀ b x b', f b x = .ok b' ↔ ok x ∧ b' = g b x) :
    ∀ (xs : List α) (b B : β), xs.foldlM f b = .ok B ↔ (∀ x ∈ xs, ok x) ∧ B = xs.foldl g b
  | [], b, B => by
      rw [List.foldlM_nil, except_pure_eq_ok]
      simp [eq_comm]
  | x :: xs, b, B => by
      rw [List.foldlM_cons, except_bind_eq_ok, List.forall_mem_cons]
      constructor
      · rintro ⟨b₁, h₁, h⟩
        obtain ⟨hx, rfl⟩ := (hf b x b₁).mp h₁
        obtain ⟨hxs, rfl⟩ := (except_foldlM_eq_ok_iff hf xs _ B).mp h
        exact ⟨⟨hx, hxs⟩, rfl⟩
      · rintro ⟨⟨hx, hxs⟩, rfl⟩
        exact ⟨g b x, (hf b x _).mpr ⟨hx, rfl⟩, (except_foldlM_eq_ok_iff hf xs _ _).mpr ⟨hxs, rfl⟩⟩

/-- A traversal in `Option` answers `ys` exactly when it maps each item to its partner in `ys`. -/
theorem option_mapM_eq_some_iff {α β : Type} {g : α → Option β} :
    ∀ {xs : List α} {ys : List β}, xs.mapM g = some ys ↔ List.Forall₂ (fun x y => g x = some y) xs ys
  | [], ys => by
      rw [List.mapM_nil, List.forall₂_nil_left_iff]
      exact ⟨fun h => (Option.some.inj h).symm, fun h => h ▸ rfl⟩
  | x :: xs, ys => by
      rw [option_mapM_cons_eq_some, List.forall₂_cons_left_iff]
      simp only [option_mapM_eq_some_iff]

namespace Machine

/-- A fold over the machine whose every step, from a state `I` holds of and on an item `Q` holds
of, either fails or only reads the machine and answers a pure function `g` of the state, the item
and the item's encoding `enc`, succeeds exactly when every item has an encoding. It then answers
the pure fold over the items and their encodings. -/
theorem run_foldlM_eq_ok_iff {α β γ : Type} {f : β → α → Exec β} {enc : α → Option γ}
    {g : β → α → γ → β} {Q : α → Prop} {I : β → Prop} {s : Machine}
    (hg : ∀ b x e, I b → Q x → enc x = some e → I (g b x e))
    (hf : ∀ b x b' t, I b → Q x → ((f b x).run s = .ok b' t ↔ ∃ e, enc x = some e ∧ b' = g b x e ∧ t = s)) :
    ∀ (xs : List α) (b : β) {B : β} {t : Machine}, I b → (∀ x ∈ xs, Q x) →
      ((xs.foldlM f b).run s = .ok B t ↔
        ∃ es, xs.mapM enc = some es ∧ B = (xs.zip es).foldl (fun b p => g b p.1 p.2) b ∧ t = s)
  | [], b, B, t, _, _ => by
      rw [List.foldlM_nil, run_pure_eq_ok, List.mapM_nil]
      constructor
      · rintro ⟨rfl, rfl⟩
        exact ⟨[], rfl, rfl, rfl⟩
      · rintro ⟨es, hes, rfl, rfl⟩
        exact ⟨rfl, rfl⟩
  | x :: xs, b, B, t, hb, hQ => by
      rw [List.foldlM_cons, run_bind_eq_ok]
      rw [List.forall_mem_cons] at hQ
      constructor
      · rintro ⟨b₁, u, h₁, h⟩
        obtain ⟨e, he, rfl, rfl⟩ := (hf b x b₁ u hb hQ.1).mp h₁
        obtain ⟨es, hes, rfl, rfl⟩ := (run_foldlM_eq_ok_iff hg hf xs _ (hg b x e hb hQ.1 he) hQ.2).mp h
        exact ⟨e :: es, option_mapM_cons_eq_some.mpr ⟨e, es, he, hes, rfl⟩, rfl, rfl⟩
      · rintro ⟨es', hes', rfl, rfl⟩
        obtain ⟨e, es, he, hes, rfl⟩ := option_mapM_cons_eq_some.mp hes'
        exact ⟨g b x e, _, (hf b x _ _ hb hQ.1).mpr ⟨e, he, rfl, rfl⟩,
          (run_foldlM_eq_ok_iff hg hf xs _ (hg b x e hb hQ.1 he) hQ.2).mpr ⟨es, hes, rfl, rfl⟩⟩

/-- Allocating bytes always succeeds with a pointer to the start of a new last region. -/
theorem run_allocBytes_eq_ok {space : Nat} {B : ByteArray} {buf : Pointer} {s t : Machine} :
    (allocBytes space B).run s = .ok buf t ↔
      buf = ⟨s.regions.size, 0⟩ ∧ t = { s with regions := s.regions.push (Region.ofBytes space B) } := by
  rw [allocBytes, run_allocRegion, EStateM.Result.ok.injEq]
  exact ⟨fun ⟨h₁, h₂⟩ => ⟨h₁.symm, h₂.symm⟩, fun ⟨h₁, h₂⟩ => ⟨h₁.symm, h₂.symm⟩⟩

end Machine

/-! ## Writing fields into a buffer -/

namespace Bytes

/-- A buffer made of a list of bytes has those bytes. -/
theorem toList_mk (data : List UInt8) : (ByteArray.mk data.toArray).toList = data := by
  rw [toList_eq_slice]
  apply List.ext_getElem (by simp [ByteArray.size])
  intro i h₁ h₂
  rw [getElem_slice, Nat.zero_add, getElem!_pos _ i (by simpa [ByteArray.size] using h₂)]
  rfl

theorem length_toList (b : ByteArray) : b.toList.length = b.size := by
  rw [toList_eq_slice, length_slice]

/-- Writing data into fields that share no byte and lie inside a buffer keeps its size, leaves
every byte outside the fields as it was, and leaves each field holding its data. -/
theorem foldl_overwrite {α : Type} {pos : α → Nat} {data : α → List UInt8} (xs : List α) (b : ByteArray)
    (hfit : ∀ x ∈ xs, pos x + (data x).length ≤ b.size)
    (hapart : xs.Pairwise fun x y => pos x + (data x).length ≤ pos y ∨ pos y + (data y).length ≤ pos x) :
    (xs.foldl (fun b x => overwrite b (pos x) (data x)) b).size = b.size ∧
      (∀ o n, (∀ x ∈ xs, o + n ≤ pos x ∨ pos x + (data x).length ≤ o) →
        slice (xs.foldl (fun b x => overwrite b (pos x) (data x)) b) o n = slice b o n) ∧
      ∀ x ∈ xs, slice (xs.foldl (fun b x => overwrite b (pos x) (data x)) b) (pos x) (data x).length = data x := by
  -- the pure fold is the interpreter's fold of steps that only write their field
  have hrun : (xs.foldlM (fun b x => pure (overwrite b (pos x) (data x))) b : Exec ByteArray).run default =
      .ok (xs.foldl (fun b x => overwrite b (pos x) (data x)) b) default := by
    rw [List.foldlM_pure]
    rfl
  obtain ⟨-, hsize, hkeep, hfields⟩ := @Machine.run_foldlM_overwrite _ _ pos (fun x => (data x).length)
    (fun x d => d = data x) default xs b default _
    (fun x _ b b' t h => by
      obtain ⟨rfl, rfl⟩ := Machine.run_pure_eq_ok.mp h
      exact ⟨rfl, data x, rfl, rfl, rfl⟩) hfit hapart hrun
  refine ⟨hsize, hkeep, fun x hx => ?_⟩
  obtain ⟨d, rfl, hd⟩ := hfields x hx
  exact hd

end Bytes

/-! ## What `pack` makes -/

namespace ArgBufferLayout

variable {l : ArgBufferLayout} {args : List ByteArray} {B : ByteArray}

/-- Packing succeeds exactly when there is one argument per slot, each as long as its slot; the
buffer is then the zeroed buffer of the layout's size with each argument written at its slot. -/
theorem pack_eq_ok_iff :
    l.pack args = .ok B ↔ List.Forall₂ (fun (sl : ArgSlot) (a : ByteArray) => a.size = sl.size) l.slots args ∧
      B = (l.slots.zip args).foldl (fun b x => Bytes.overwrite b x.1.offset x.2.toList)
        (ByteArray.mk (Array.replicate l.size 0)) := by
  unfold pack
  by_cases hlen : args.length = l.slots.length
  · rw [if_neg (by simp [hlen])]
    dsimp only
    rw [@except_foldlM_eq_ok_iff _ _ _ _ (fun x : ArgSlot × ByteArray => x.2.size = x.1.size) _ ?step,
      List.forall₂_iff_zip]
    · simp only [hlen, true_and]
      exact and_congr_left fun _ => ⟨fun h _ _ hx => h _ hx, fun h _ hx => h hx⟩
    case step =>
      rintro b ⟨sl, a⟩ b'
      dsimp only
      by_cases hsz : a.size = sl.size
      · simp [hsz, pure, Except.pure, eq_comm]
      · simp [hsz, throw, throwThe, MonadExceptOf.throw]
  · rw [if_pos (by simp [hlen])]
    constructor
    · intro h
      cases h
    · rintro ⟨h, -⟩
      exact absurd h.length_eq.symm hlen

/-- Packing fails exactly when an argument is missing or extra, or when some argument is not as
long as its slot. -/
theorem pack_fails_iff :
    (∃ e, l.pack args = .error e) ↔
      args.length ≠ l.slots.length ∨
        ∃ (i : Nat) (sl : ArgSlot) (a : ByteArray), l.slots[i]? = some sl ∧ args[i]? = some a ∧ a.size ≠ sl.size := by
  have hfail : (∃ e, l.pack args = .error e) ↔ ¬ ∃ B, l.pack args = .ok B := by
    cases l.pack args <;> simp
  simp only [hfail, pack_eq_ok_iff, exists_eq_right, List.forall₂_iff_get]
  constructor
  · intro h
    by_contra hne
    push Not at hne
    refine h ⟨hne.1.symm, fun i h₁ h₂ => ?_⟩
    exact hne.2 i _ _ (List.getElem?_eq_getElem h₁) (List.getElem?_eq_getElem h₂)
  · rintro (hne | ⟨i, sl, a, hsl, ha, hsz⟩) ⟨hlen, hall⟩
    · exact hne hlen.symm
    · obtain ⟨h₁, rfl⟩ := List.getElem?_eq_some_iff.mp hsl
      obtain ⟨h₂, rfl⟩ := List.getElem?_eq_some_iff.mp ha
      exact hsz (hall i h₁ h₂)

variable {f : Function} {c : DeviceConfig}

/-- On a computed layout a packed buffer is as large as the layout, each slot holds its argument,
and every byte outside the slots is zero. -/
theorem pack_of_compute (hL : compute f c = .ok (.ok l)) (h : l.pack args = .ok B) :
    B.size = l.size ∧
      (∀ (i : Nat) (sl : ArgSlot) (a : ByteArray), l.slots[i]? = some sl → args[i]? = some a →
        Bytes.slice B sl.offset sl.size = a.toList) ∧
      ∀ j, (∀ sl ∈ l.slots, j < sl.offset ∨ sl.offset + sl.size ≤ j) → B[j]! = 0 := by
  obtain ⟨hsizes, rfl⟩ := pack_eq_ok_iff.mp h
  obtain ⟨-, -, hin, hpair⟩ := compute_eq_ok hL
  have hzero : (ByteArray.mk (Array.replicate l.size 0)).size = l.size := Array.size_replicate ..
  have hzip : (l.slots.zip args).map Prod.fst = l.slots := List.map_fst_zip hsizes.length_eq.le
  -- each argument is as long as its slot
  have hlen : ∀ x ∈ l.slots.zip args, x.2.toList.length = x.1.size := fun x hx => by
    rw [Bytes.length_toList]
    exact List.forall₂_iff_zip.mp hsizes |>.2 hx
  obtain ⟨hsize, hkeep, hfields⟩ := @Bytes.foldl_overwrite _ (fun x => x.1.offset) (fun x => x.2.toList)
    (l.slots.zip args) (ByteArray.mk (Array.replicate l.size 0))
    (fun x hx => by
      rw [hlen x hx, hzero]
      exact (hin x.1 (hzip ▸ List.mem_map_of_mem hx)).1)
    (by
      rw [← hzip, List.pairwise_map] at hpair
      refine List.Pairwise.imp_of_mem (fun {x y} hx hy hxy => .inl ?_) hpair
      rw [hlen x hx]
      exact hxy)
  refine ⟨hsize.trans hzero, fun i sl a hsl ha => ?_, fun j hj => ?_⟩
  · have hx : (sl, a) ∈ l.slots.zip args := List.mem_of_getElem? (List.getElem?_zip_eq_some.mpr ⟨hsl, ha⟩)
    have hfield := hfields _ hx
    rwa [hlen _ hx] at hfield
  · -- a byte outside every slot keeps the zero it started with
    have hbyte := hkeep j 1 fun x hx => by
      rw [hlen x hx]
      have := hj x.1 (hzip ▸ List.mem_map_of_mem hx)
      omega
    rw [Bytes.slice_one, Bytes.slice_one, Bytes.getElem!_replicate, List.singleton_inj] at hbyte
    exact hbyte

/-! ## What the interpreter's host packs -/

open Machine

/-- The bytes the host packs into the slot `sl` for the value `arg`, reading the machine `s`: a
word's little-endian bytes cut to the slot's size; for an aggregate's slot, the `sl.size` bytes its
pointer points at; for any other slot, the bytes of a pointer's stored form. There are none when
the pointer leads outside its region or has no stored form. -/
def slotEncoding (s : Machine) (sl : ArgSlot) : Value → Option ByteArray
  | .int v => some ⟨(Bytes.littleEndian v sl.size).toArray⟩
  | .ptr p =>
      if sl.kind = .byValue then
        match s.regions[p.region]? with
        | some r =>
            if p.offset + sl.size ≤ Word.max ∧ p.offset + sl.size ≤ r.size then some (r.read p.offset sl.size)
            else none
        | none => none
      else
        match encodePtr s.ptrBytes p with
        | .ok raw => some ⟨(Bytes.littleEndian raw sl.size).toArray⟩
        | .error _ => none

section Encoding

variable {s : Machine} {sl : ArgSlot} {p : Pointer} {e : ByteArray}

@[simp]
theorem slotEncoding_int (v : Nat) : slotEncoding s sl (.int v) = some ⟨(Bytes.littleEndian v sl.size).toArray⟩ :=
  rfl

/-- An aggregate's slot holds the bytes its pointer points at, when they lie inside its region. -/
theorem slotEncoding_byValue (hk : sl.kind = .byValue) :
    slotEncoding s sl (.ptr p) = some e ↔ ∃ r, s.regions[p.region]? = some r ∧
      p.offset + sl.size ≤ Word.max ∧ p.offset + sl.size ≤ r.size ∧ e = r.read p.offset sl.size := by
  simp only [slotEncoding, hk, if_true]
  cases s.regions[p.region]? with
  | none => simp
  | some r =>
      by_cases hfit : p.offset + sl.size ≤ Word.max ∧ p.offset + sl.size ≤ r.size
      · simp [hfit, eq_comm]
      · simp only [hfit, if_false, reduceCtorEq, Option.some.injEq, exists_eq_left', false_iff]
        exact fun h => hfit ⟨h.1, h.2.1⟩

/-- Any other slot holds the bytes of a pointer's stored form, when it has one. -/
theorem slotEncoding_ptr (hk : sl.kind ≠ .byValue) :
    slotEncoding s sl (.ptr p) = some e ↔
      ∃ raw, encodePtr s.ptrBytes p = .ok raw ∧ e = ⟨(Bytes.littleEndian raw sl.size).toArray⟩ := by
  simp only [slotEncoding, hk, if_false]
  cases encodePtr s.ptrBytes p with
  | error _ => simp
  | ok raw => simp [eq_comm]

/-- Every encoding is as long as its slot. -/
theorem size_slotEncoding {arg : Value} (h : slotEncoding s sl arg = some e) : e.size = sl.size := by
  cases arg with
  | int v =>
      rw [slotEncoding_int, Option.some.injEq] at h
      subst h
      simp [ByteArray.size]
  | ptr p =>
      by_cases hk : sl.kind = .byValue
      · obtain ⟨r, -, -, -, rfl⟩ := (slotEncoding_byValue hk).mp h
        exact Region.size_read _ _ _
      · obtain ⟨raw, -, rfl⟩ := (slotEncoding_ptr hk).mp h
        simp [ByteArray.size]

/-- Packing the encodings of one value per slot gives the buffer their writes make. -/
theorem pack_of_mapM_slotEncoding {vals : List Value} {encs : List ByteArray} (hlen : vals.length = l.slots.length)
    (hencs : (l.slots.zip vals).mapM (fun x => slotEncoding s x.1 x.2) = some encs) :
    l.pack encs = .ok (((l.slots.zip vals).zip encs).foldl (fun b p => Bytes.overwrite b p.1.1.offset p.2.toList)
      (ByteArray.mk (Array.replicate l.size 0))) := by
  have hslots : (l.slots.zip vals).map Prod.fst = l.slots := List.map_fst_zip (by omega)
  refine pack_eq_ok_iff.mpr ⟨?_, ?_⟩
  · rw [← hslots, List.forall₂_map_left_iff]
    exact (option_mapM_eq_some_iff.mp hencs).imp fun _ _ h => size_slotEncoding h
  · conv_rhs => rw [← hslots, List.zip_map_left, List.foldl_map]
    rfl

end Encoding

/-- In a computed layout on a validated device every slot lies inside the buffer and the word
range, and one the host writes as a word is one, two, four or eight bytes wide. -/
theorem slot_ready_of_compute (hc : c.validate = none) (hL : compute f c = .ok (.ok l)) {sl : ArgSlot}
    (hsl : sl ∈ l.slots) :
    (sl.offset + sl.size ≤ l.size ∧ sl.offset + sl.size ≤ Word.max) ∧ (sl.kind ≠ .byValue → sl.size ∈ [1, 2, 4, 8]) := by
  obtain ⟨-, -, hin, -⟩ := compute_eq_ok hL
  obtain ⟨p, -, hslot⟩ := param_of_mem_slots hL hsl
  exact ⟨hin sl hsl, fun hk => SlotOf.size_mem hc hslot hk⟩

end ArgBufferLayout

namespace Harness

open ArgBufferLayout Machine

/-! ### One slot at a time

The host fills a slot in one of three ways, by the slot's kind and the value; each fills it with
the value's encoding, and fails exactly when there is none. -/

section Slot

variable {s t : Machine} {sl : ArgSlot} {b b' : ByteArray}

/-- An aggregate's slot is filled with the bytes its pointer points at. -/
theorem run_copySlot_eq_ok_iff {src : Pointer} (hk : sl.kind = .byValue) :
    (do
        let data ← readBytes src sl.size
        pure (Bytes.overwrite b sl.offset data.toList) : Exec ByteArray).run s = .ok b' t ↔
      ∃ e, slotEncoding s sl (.ptr src) = some e ∧ b' = Bytes.overwrite b sl.offset e.toList ∧ t = s := by
  rw [run_bind_eq_ok]
  constructor
  · rintro ⟨data, u, hread, hpure⟩
    obtain ⟨rfl, rfl⟩ := run_pure_eq_ok.mp hpure
    obtain ⟨rfl, r, hr, h₁, h₂, rfl⟩ := run_readBytes_eq_ok.mp hread
    exact ⟨_, (slotEncoding_byValue hk).mpr ⟨r, hr, h₁, h₂, rfl⟩, rfl, rfl⟩
  · rintro ⟨e, he, rfl, rfl⟩
    obtain ⟨r, hr, h₁, h₂, rfl⟩ := (slotEncoding_byValue hk).mp he
    exact ⟨_, _, run_readBytes_eq_ok.mpr ⟨rfl, r, hr, h₁, h₂, rfl⟩, run_pure_eq_ok.mpr ⟨rfl, rfl⟩⟩

variable (hword : sl.size ∈ [1, 2, 4, 8]) (hinside : sl.offset + sl.size ≤ Word.max ∧ sl.offset + sl.size ≤ b.size)
include hword hinside

/-- A word fills its slot with its bytes in the slot's width. -/
theorem run_writeSlot_eq_ok_iff {v : Nat} :
    (faultOf (Bytes.writeWord b sl.offset sl.size v)).run s = .ok b' t ↔
      ∃ e, slotEncoding s sl (.int v) = some e ∧ b' = Bytes.overwrite b sl.offset e.toList ∧ t = s := by
  rw [run_faultOf_eq_ok, Bytes.writeWord_eq_ok hword, slotEncoding_int]
  simp only [hinside, true_and, Option.some.injEq, exists_eq_left', Bytes.toList_mk]
  exact and_congr_left fun _ => eq_comm

/-- A pointer fills a slot other than an aggregate's with the bytes of its stored form, in the
slot's width. -/
theorem run_writePtrSlot_eq_ok_iff {q : Pointer} (hk : sl.kind ≠ .byValue) :
    (do
        let raw ← faultOf (encodePtr (← get).ptrBytes q)
        faultOf (Bytes.writeWord b sl.offset sl.size raw) : Exec ByteArray).run s = .ok b' t ↔
      ∃ e, slotEncoding s sl (.ptr q) = some e ∧ b' = Bytes.overwrite b sl.offset e.toList ∧ t = s := by
  rw [run_bind_eq_ok]
  constructor
  · rintro ⟨m, u₁, hget, hrest⟩
    cases hget
    obtain ⟨raw, u₂, h₁, h₂⟩ := run_bind_eq_ok.mp hrest
    obtain ⟨hraw, rfl⟩ := run_faultOf_eq_ok.mp h₁
    obtain ⟨hw, rfl⟩ := run_faultOf_eq_ok.mp h₂
    obtain ⟨-, rfl⟩ := (Bytes.writeWord_eq_ok hword).mp hw
    exact ⟨_, (slotEncoding_ptr hk).mpr ⟨raw, hraw, rfl⟩, by rw [Bytes.toList_mk], rfl⟩
  · rintro ⟨e, he, rfl, rfl⟩
    obtain ⟨raw, hraw, rfl⟩ := (slotEncoding_ptr hk).mp he
    refine ⟨_, _, rfl, run_bind_eq_ok.mpr ⟨raw, _, run_faultOf_eq_ok.mpr ⟨hraw, rfl⟩, ?_⟩⟩
    exact run_faultOf_eq_ok.mpr ⟨(Bytes.writeWord_eq_ok hword).mpr ⟨hinside, by rw [Bytes.toList_mk]⟩, rfl⟩

end Slot

variable {h : Harness} {f : Function} {l : ArgBufferLayout} {args : List Value} {s t : Machine} {buf : Pointer}

/-- On a validated device, packing values into a computed layout, with a pointer for every
aggregate's slot, succeeds exactly when every value has an encoding. The new region then holds
what `pack` makes of the encodings. -/
theorem run_argBuffer_eq_ok_iff (hc : h.cfg.validate = none) (hL : compute f h.cfg = .ok (.ok l))
    (hlen : args.length = l.slots.length)
    (hbyValue : ∀ x ∈ l.slots.zip args, x.1.kind = .byValue → ∃ src, x.2 = .ptr src) :
    (h.argBuffer l args).run s = .ok buf t ↔
      ∃ encs B, (l.slots.zip args).mapM (fun x => slotEncoding s x.1 x.2) = some encs ∧ l.pack encs = .ok B ∧
        buf = ⟨s.regions.size, 0⟩ ∧
        t = { s with regions := s.regions.push (Region.ofBytes h.cfg.addressSpaces.argsSpace B) } := by
  have hzero : (ByteArray.mk (Array.replicate l.size 0)).size = l.size := Array.size_replicate ..
  have hslots : (l.slots.zip args).map Prod.fst = l.slots := List.map_fst_zip (by omega)
  have hready : ∀ x ∈ l.slots.zip args, (x.1.offset + x.1.size ≤ l.size ∧ x.1.offset + x.1.size ≤ Word.max) ∧
      (x.1.kind ≠ .byValue → x.1.size ∈ [1, 2, 4, 8]) ∧ (x.1.kind = .byValue → ∃ src, x.2 = .ptr src) := by
    intro x hx
    obtain ⟨hfit, hword⟩ := slot_ready_of_compute hc hL (hslots ▸ List.mem_map_of_mem hx)
    exact ⟨hfit, hword, hbyValue x hx⟩
  unfold argBuffer
  dsimp only
  rw [if_neg (by simp [hlen]), run_bind_eq_ok]
  -- the fold of writes is the pure fold of the encodings, each step writing its slot
  refine (exists_congr fun B => exists_congr fun u => and_congr_left fun _ =>
    @Machine.run_foldlM_eq_ok_iff _ _ _ _ (fun x => slotEncoding s x.1 x.2)
      (fun b x e => Bytes.overwrite b x.1.offset e.toList) _ (fun b => b.size = l.size) s ?hg ?hf _ _ _ _ hzero
      hready).trans ?_
  case hg =>
    intro b x e hb _ _
    exact (Bytes.size_overwrite _ _ _).trans hb
  case hf =>
    rintro b ⟨sl, arg⟩ b' u hb ⟨⟨hfit, hmax⟩, hword, hagg⟩
    dsimp only at hfit hmax hword hagg ⊢
    have hinside : sl.offset + sl.size ≤ Word.max ∧ sl.offset + sl.size ≤ b.size := ⟨hmax, hb ▸ hfit⟩
    split
    · rename_i src hk
      exact run_copySlot_eq_ok_iff hk
    · rename_i v
      have hk : sl.kind ≠ .byValue := fun hk => by
        obtain ⟨src, hsrc⟩ := hagg hk
        cases hsrc
      exact run_writeSlot_eq_ok_iff (hword hk) hinside
    · rename_i q hk
      exact run_writePtrSlot_eq_ok_iff (hword hk) hinside hk
  -- the new region is the packed buffer
  constructor
  · rintro ⟨B, u, ⟨encs, hencs, rfl, rfl⟩, hbuf⟩
    exact ⟨encs, _, hencs, pack_of_mapM_slotEncoding hlen hencs, run_allocBytes_eq_ok.mp hbuf⟩
  · rintro ⟨encs, B, hencs, hB, hbuf⟩
    rw [pack_of_mapM_slotEncoding hlen hencs, Except.ok.injEq] at hB
    exact ⟨B, s, ⟨encs, hencs, hB.symm, rfl⟩, run_allocBytes_eq_ok.mpr hbuf⟩

end Harness

namespace ArgBufferLayout

/-- On a computed layout, `pack` fails exactly on a count or length mismatch, and otherwise gives
a buffer of the layout's size holding each argument in its slot and zero elsewhere. On a validated
device the interpreter's host packs values into the same buffer: it fails exactly when some value
has no encoding, and its new region otherwise holds `pack` applied to the encodings. -/
theorem pack_agrees_with_argBuffer {f : Function} {c : DeviceConfig} {l : ArgBufferLayout}
    (hL : compute f c = .ok (.ok l)) :
    (∀ args : List ByteArray, (∃ e, l.pack args = .error e) ↔
      args.length ≠ l.slots.length ∨
        ∃ (i : Nat) (sl : ArgSlot) (a : ByteArray), l.slots[i]? = some sl ∧ args[i]? = some a ∧ a.size ≠ sl.size) ∧
    (∀ (args : List ByteArray) (B : ByteArray), l.pack args = .ok B →
      B.size = l.size ∧
        (∀ (i : Nat) (sl : ArgSlot) (a : ByteArray), l.slots[i]? = some sl → args[i]? = some a →
          Bytes.slice B sl.offset sl.size = a.toList) ∧
        ∀ j, (∀ sl ∈ l.slots, j < sl.offset ∨ sl.offset + sl.size ≤ j) → B[j]! = 0) ∧
    (c.validate = none → ∀ (h : Harness) (args : List Value) (s t : Machine) (buf : Pointer), h.cfg = c →
      args.length = l.slots.length → (∀ x ∈ l.slots.zip args, x.1.kind = .byValue → ∃ src, x.2 = .ptr src) →
      ((h.argBuffer l args).run s = .ok buf t ↔
        ∃ encs B, (l.slots.zip args).mapM (fun x => slotEncoding s x.1 x.2) = some encs ∧ l.pack encs = .ok B ∧
          buf = ⟨s.regions.size, 0⟩ ∧
          t = { s with regions := s.regions.push (Region.ofBytes c.addressSpaces.argsSpace B) })) := by
  refine ⟨fun _ => pack_fails_iff, fun _ _ h => pack_of_compute hL h, ?_⟩
  rintro hc h args s t buf rfl hlen hbyValue
  exact Harness.run_argBuffer_eq_ok_iff hc hL hlen hbyValue

theorem pack_agrees_with_argBuffer_scratchKernel :
    ∃ l, compute scratchKernel DeviceConfig.cpu = .ok (.ok l) ∧ DeviceConfig.cpu.validate = none ∧
      ∀ (args : List ByteArray) (B : ByteArray), l.pack args = .ok B → B.size = l.size := by
  obtain ⟨l, hl⟩ : ∃ l, compute scratchKernel DeviceConfig.cpu = .ok (.ok l) := ⟨_, rfl⟩
  exact ⟨l, hl, by decide, fun args B h => ((pack_agrees_with_argBuffer hl).2.1 args B h).1⟩

end ArgBufferLayout

end KernelLaunch
