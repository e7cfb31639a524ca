import KernelLaunch.Proofs.Launch.Harness
import KernelLaunch.Proofs.Layout.Slots
/-!
# Packing and unpacking an argument buffer

The host packs a kernel's arguments into one buffer, and the argument-buffer launcher reads them
back out before it calls the launcher it delegates to. The two sides are separate code over the
same layout, and they agree slot by slot.

* The host writes each argument into its slot: a word of the slot's width, or for an aggregate the
  bytes its pointer points at (`SlotBytes`). Slots share no byte, so every slot of the packed
  buffer holds exactly what was written into it (`run_foldlM_pack`, `run_argBuffer_slots`).
* The launcher reads a word-sized slot back as the argument itself, when the argument fits the
  slot (`ArgFits`): a word below the slot's width, a pointer whose stored form loses nothing, or
  the null word. An aggregate's slot is copied into a new private region, and a slot that holds
  the size of local memory the launcher allocates becomes a pointer to a new zeroed local region
  of that size (`Unpacked`, `run_block_slotCode_unpacked`). No two new regions are the same
  (`FreshApart`).
-/

namespace KernelLaunch

open Machine

/-! ## Pointers stored as words -/

/-- A pointer that a stored word of `ptrBytes` bytes holds without loss: its offset fits below
the region tag, and the tag fits in the word. -/
def Pointer.Encodable (ptrBytes : Nat) (p : Pointer) : Prop :=
  p.offset < 2 ^ regionShift ptrBytes ∧ (p.region + 1) * 2 ^ regionShift ptrBytes < 256 ^ ptrBytes

namespace Machine

/-- The null word holds no pointer. -/
theorem decodePtr_zero (ptrBytes : Nat) : decodePtr ptrBytes 0 = none := by
  simp [decodePtr]

/-- A pointer stored without loss is a word of the pointer width that decodes to the pointer. -/
theorem encodePtr_of_encodable {ptrBytes : Nat} {p : Pointer} (hpb : ptrBytes = 4 ∨ ptrBytes = 8)
    (hp : p.Encodable ptrBytes) :
    ∃ raw, encodePtr ptrBytes p = .ok raw ∧ raw < 256 ^ ptrBytes ∧ decodePtr ptrBytes raw = some p := by
  obtain ⟨hoff, htag⟩ := hp
  have hpos : 0 < 2 ^ regionShift ptrBytes := Nat.two_pow_pos _
  -- the tag and the offset occupy separate bits, so the stored word is their sum
  have hsum : (p.region + 1) * 2 ^ regionShift ptrBytes ||| p.offset =
      2 ^ regionShift ptrBytes * (p.region + 1) + p.offset := by
    rw [Nat.mul_comm, Nat.two_pow_add_eq_or_of_lt hoff]
  have hfits : 256 ^ ptrBytes ≤ Word.size := by
    rcases hpb with rfl | rfl <;> decide
  have hle : p.region + 1 ≤ (p.region + 1) * 2 ^ regionShift ptrBytes := Nat.le_mul_of_pos_right _ hpos
  refine ⟨2 ^ regionShift ptrBytes * (p.region + 1) + p.offset, ?_, ?_, ?_⟩
  · unfold encodePtr
    rw [if_neg (by unfold Word.max; unfold Word.size at hfits; omega), Nat.pow_eq,
      Nat.mod_eq_of_lt (by omega), hsum]
  · rcases hpb with rfl | rfl <;> norm_num [regionShift] at htag hoff ⊢ <;> omega
  · have hdiv : (2 ^ regionShift ptrBytes * (p.region + 1) + p.offset) / 2 ^ regionShift ptrBytes =
        p.region + 1 := by
      rw [Nat.mul_add_div hpos, Nat.div_eq_of_lt hoff, Nat.add_zero]
    have hmod : (2 ^ regionShift ptrBytes * (p.region + 1) + p.offset) % 2 ^ regionShift ptrBytes = p.offset := by
      rw [Nat.mul_add_mod, Nat.mod_eq_of_lt hoff]
    simp [decodePtr, Nat.pow_eq, hdiv, hmod]

end Machine

namespace Machine

/-- A fold over the machine whose every step only reads it and writes some bytes into a field of
the buffer: when the fields share no byte and lie inside the buffer, the buffer keeps its size,
bytes outside every field stay as they were, and each field ends holding the bytes its step
wrote. -/
theorem run_foldlM_overwrite {α : Type} {step : ByteArray → α → Exec ByteArray} {pos wid : α → Nat}
    {P : α → List UInt8 → Prop} {s : Machine} :
    ∀ (xs : List α) (b : ByteArray) {t : Machine} {B : ByteArray},
      (∀ x ∈ xs, ∀ b b' t, (step b x).run s = .ok b' t →
        t = s ∧ ∃ data, P x data ∧ data.length = wid x ∧ b' = Bytes.overwrite b (pos x) data) →
      (∀ x ∈ xs, pos x + wid x ≤ b.size) →
      xs.Pairwise (fun x y => pos x + wid x ≤ pos y ∨ pos y + wid y ≤ pos x) →
      (xs.foldlM step b).run s = .ok B t →
      t = s ∧ B.size = b.size ∧
        (∀ o n, (∀ x ∈ xs, o + n ≤ pos x ∨ pos x + wid x ≤ o) → Bytes.slice B o n = Bytes.slice b o n) ∧
        ∀ x ∈ xs, ∃ data, P x data ∧ Bytes.slice B (pos x) (wid x) = data
  | [], b, t, B, _, _, _, h => by
      rw [List.foldlM_nil] at h
      obtain ⟨rfl, rfl⟩ := run_pure_eq_ok.mp h
      exact ⟨rfl, rfl, fun _ _ _ => rfl, fun _ hx => absurd hx List.not_mem_nil⟩
  | x :: xs, b, t, B, hstep, hfit, hapart, h => by
      rw [List.foldlM_cons] at h
      obtain ⟨b₁, u, h₁, h₂⟩ := run_bind_eq_ok.mp h
      obtain ⟨rfl, data, hP, hlen, rfl⟩ := hstep x List.mem_cons_self b b₁ u h₁
      rw [List.pairwise_cons] at hapart
      have hx := hfit x List.mem_cons_self
      obtain ⟨rfl, hsize, hkeep, hreads⟩ := run_foldlM_overwrite xs _
        (fun y hy => hstep y (List.mem_cons_of_mem x hy))
        (fun y hy => by rw [Bytes.size_overwrite]; exact hfit y (List.mem_cons_of_mem x hy)) hapart.2 h₂
      rw [Bytes.size_overwrite] at hsize
      refine ⟨rfl, hsize, fun o n ho => ?_, fun y hy => ?_⟩
      · rw [hkeep o n fun y hy => ho y (List.mem_cons_of_mem x hy),
          Bytes.slice_overwrite_of_disjoint _ _ _ _ _ (by omega) (by have := ho x List.mem_cons_self; omega)]
      · rcases List.mem_cons.mp hy with rfl | hy
        · -- the later steps write apart from this field, which holds what its own step wrote
          refine ⟨data, hP, ?_⟩
          rw [hkeep _ _ fun z hz => hapart.1 z hz, ← hlen, Bytes.slice_overwrite_self _ _ _ (by omega)]
        · exact hreads y hy

end Machine

namespace ArgBufferLayout

/-! ## What the host packs -/

/-- The arguments the launcher hands on unchanged fit their slots: a scalar is a word below the
slot's width; a pointer, or a pointer to local memory the runtime allocates, is a pointer stored
without loss or the null word; the size of local memory the launcher allocates fits `size_t`; an
aggregate passed by value is a pointer to its bytes. -/
def ArgFits (c : DeviceConfig) (sl : ArgSlot) (arg : Value) : Prop :=
  match sl.kind with
  | .scalar => ∃ n, arg = .int n ∧ n < 256 ^ sl.size
  | .pointer | .localMemory false => arg = .int 0 ∨ ∃ p, arg = .ptr p ∧ p.Encodable c.ptrBytes
  | .localMemory true => ∃ n, arg = .int n ∧ n < 2 ^ c.sizeTWidth
  | .byValue => ∃ src, arg = .ptr src

/-- The bytes `data` the host packs into the slot `sl` for the argument `arg`, reading the machine
`s`: for an aggregate the bytes its pointer points at, for any other argument its word, or the
stored form of its pointer, in the slot's width. -/
def SlotBytes (s : Machine) (sl : ArgSlot) (arg : Value) (data : List UInt8) : Prop :=
  match arg, sl.kind with
  | .ptr src, .byValue => ∃ r, s.regions[src.region]? = some r ∧ data = (r.read src.offset sl.size).toList
  | .int v, _ => data = Bytes.littleEndian v sl.size
  | .ptr p, _ => ∃ raw, encodePtr s.ptrBytes p = .ok raw ∧ data = Bytes.littleEndian raw sl.size

/-- A slot the host writes as a word is one, two, four or eight bytes wide; an aggregate's slot is
written from a pointer to its bytes. -/
def PackFits (sl : ArgSlot) (arg : Value) : Prop :=
  (sl.kind = .byValue ∧ ∃ src, arg = .ptr src) ∨ (sl.kind ≠ .byValue ∧ sl.size ∈ [1, 2, 4, 8])

/-- On a validated device, an argument that fits its slot is one the host can pack. -/
theorem ArgFits.packFits {c : DeviceConfig} {f : Function} {p : Param} {sl : ArgSlot} {arg : Value}
    (hc : c.validate = none) (hslot : SlotOf f c p sl) (hfit : ArgFits c sl arg) : PackFits sl arg := by
  by_cases hk : sl.kind = .byValue
  · simp only [ArgFits, hk] at hfit
    exact .inl ⟨hk, hfit⟩
  · exact .inr ⟨hk, SlotOf.size_mem hc hslot hk⟩

end ArgBufferLayout

namespace Harness

open ArgBufferLayout

variable {h : Harness} {s t : Machine}

/-- The packed buffer is a new region holding, in each slot, the bytes the host writes for the
slot's argument, as read from the machine the packing starts in; it is as large as the layout
says. -/
theorem run_argBuffer_slots {l : ArgBufferLayout} {args : List Value} {buf : Pointer}
    (hin : ∀ sl ∈ l.slots, sl.offset + sl.size ≤ l.size)
    (hpair : l.slots.Pairwise (fun a b => a.offset + a.size ≤ b.offset))
    (hfits : ∀ x ∈ l.slots.zip args, PackFits x.1 x.2)
    (hrun : (h.argBuffer l args).run s = .ok buf t) :
    ∃ B, buf = ⟨s.regions.size, 0⟩ ∧ t = { s with regions := s.regions.push (Region.ofBytes h.cfg.addressSpaces.argsSpace B) } ∧
      B.size = l.size ∧ ∀ x ∈ l.slots.zip args, SlotBytes s x.1 x.2 (Bytes.slice B x.1.offset x.1.size) := by
  obtain ⟨hlen, hbuf, -⟩ := run_argBuffer hrun
  unfold argBuffer at hrun
  dsimp only at hrun
  rw [if_neg (by simp [hlen])] at hrun
  obtain ⟨B, u, hpack, halloc⟩ := run_bind_eq_ok.mp hrun
  clear hrun
  have hzip : (l.slots.zip args).map Prod.fst = l.slots := List.map_fst_zip (by omega)
  have hzero : (ByteArray.mk (Array.replicate l.size 0)).size = l.size := Array.size_replicate ..
  -- each slot lies inside the buffer and apart from the others
  have hfold := @run_foldlM_overwrite _ _ (fun x => x.1.offset) (fun x => x.1.size)
    (fun x data => SlotBytes s x.1 x.2 data) _ _ _ _ _ ?step
    (fun x hx => by rw [hzero]; exact hin x.1 (hzip ▸ List.mem_map_of_mem hx))
    (by
      rw [← hzip, List.pairwise_map] at hpair
      exact hpair.imp fun h => .inl h) hpack
  obtain ⟨rfl, hsize, -, hreads⟩ := hfold
  change (allocRegion _).run _ = _ at halloc
  rw [run_allocRegion, EStateM.Result.ok.injEq] at halloc
  obtain ⟨rfl, rfl⟩ := halloc
  refine ⟨B, rfl, rfl, hsize.trans hzero, fun x hx => ?_⟩
  obtain ⟨data, hP, hdata⟩ := hreads x hx
  exact hdata ▸ hP
  case step =>
    -- every step only reads the machine and writes its slot's bytes
    rintro ⟨sl, arg⟩ hx b b' t hrun
    have hw := hfits _ hx
    dsimp only at hrun hw ⊢
    split at hrun
    · -- an aggregate: its bytes, read from the machine
      rename_i src hk
      obtain ⟨data, u, hread, hpure⟩ := run_bind_eq_ok.mp hrun
      obtain ⟨rfl, rfl⟩ := run_pure_eq_ok.mp hpure
      obtain ⟨rfl, r, hr, -, -, rfl⟩ := run_readBytes_eq_ok.mp hread
      refine ⟨rfl, _, ?_, by rw [Bytes.toList_eq_slice]; simp, rfl⟩
      simp only [SlotBytes, hk]
      exact ⟨r, hr, rfl⟩
    · -- a word, in the slot's width
      rename_i v
      obtain ⟨hword, rfl⟩ := run_faultOf_eq_ok.mp hrun
      have hsz : sl.size ∈ [1, 2, 4, 8] := by
        rcases hw with ⟨-, src, h⟩ | ⟨-, h⟩
        · cases h
        · exact h
      obtain ⟨-, rfl⟩ := (Bytes.writeWord_eq_ok hsz).mp hword
      exact ⟨rfl, _, rfl, by simp, rfl⟩
    · -- the stored form of a pointer, in the slot's width
      rename_i q hnot
      obtain ⟨m, u, hget, hrest⟩ := run_bind_eq_ok.mp hrun
      cases hget
      obtain ⟨raw, u', hrun₁, hrun₂⟩ := run_bind_eq_ok.mp hrest
      obtain ⟨hraw, rfl⟩ := run_faultOf_eq_ok.mp hrun₁
      obtain ⟨hword, rfl⟩ := run_faultOf_eq_ok.mp hrun₂
      have hk : sl.kind ≠ .byValue := hnot
      have hsz : sl.size ∈ [1, 2, 4, 8] := by
        rcases hw with ⟨hk', -⟩ | ⟨-, h⟩
        · exact absurd hk' hk
        · exact h
      obtain ⟨-, rfl⟩ := (Bytes.writeWord_eq_ok hsz).mp hword
      refine ⟨rfl, _, ?_, by simp, rfl⟩
      -- the pointer is not an aggregate's, so its slot holds its stored form
      unfold SlotBytes
      split <;> simp_all

end Harness

/-! ## What the launcher reads back -/

namespace Machine

/-- A word read at an offset of a region holding exactly some bytes is the little-endian word of
the bytes there, for a field inside them. -/
theorem wordAt?_field {w : Machine} {k space off wd : Nat} {B : ByteArray}
    (hB : w.regions[k]? = some (Region.ofBytes space B)) (hw : wd ∈ [1, 2, 4, 8])
    (hmax : off + wd ≤ Word.max) (hin : off + wd ≤ B.size) :
    w.wordAt? ((⟨k, 0⟩ : Pointer).add off) wd = some (Bytes.ofLittleEndian (Bytes.slice B off wd)) := by
  have hoff : (⟨k, 0⟩ : Pointer).add off = ⟨k, off⟩ := by
    simp only [Pointer.add, Word.wrappingAdd, Nat.zero_add, Pointer.mk.injEq, true_and]
    exact Nat.mod_eq_of_lt (by unfold Word.max at hmax; unfold Word.size; omega)
  rw [hoff, wordAt?_ofBytes hB hw hmax hin, Bytes.readWord_eq_ok hw ⟨hmax, hin⟩]
  rfl

/-- A zeroed region with bytes written over all of it from its start holds exactly those bytes. -/
theorem Region.write_zeroed {sp n : Nat} {data : ByteArray} (hn : data.size = n) :
    (Region.zeroed sp n).write 0 data = Region.ofBytes sp data := by
  have hlen : data.toList.length = n := by rw [Bytes.toList_eq_slice, Bytes.length_slice, hn]
  have hdata : Bytes.slice data 0 n = data.toList := by rw [← hn, ← Bytes.toList_eq_slice]
  simp only [Region.write, Region.zeroed, Region.ofBytes, Region.mk.injEq, true_and]
  refine ⟨hn.symm, ?_⟩
  -- the stored bytes are grown to `n` zeros, then overwritten from the start
  simp only [ByteArray.size_empty, Nat.zero_add, Nat.sub_zero, hn]
  split
  · have hbase : (ByteArray.empty ++ Bytes.zeros n).size = n := by
      simp [Bytes.size_zeros]
    refine Bytes.eq_of_slice_eq (n := n) (by rw [Bytes.size_overwrite, hbase]) hn ?_
    have hself := Bytes.slice_overwrite_self (ByteArray.empty ++ Bytes.zeros n) 0 data.toList (by omega)
    rw [hlen] at hself
    rw [hself, hdata]
  · rename_i hle
    have hempty : n = 0 := by simp at hle; omega
    subst hempty
    exact Bytes.eq_of_slice_eq (n := 0) (by rw [Bytes.size_overwrite]; rfl) hn rfl

end Machine

namespace SlotKind

/-- Whether the launcher makes a new region for a slot of the kind: a private copy of an
aggregate, or the local memory it allocates. -/
def allocates : SlotKind → Bool
  | .byValue | .localMemory true => true
  | _ => false

end SlotKind

namespace ArgBufferLayout

/-- What the launcher hands on for the slot `sl`, against the argument `arg` the host packed into
it from the machine `s`, as seen in the machine `u` the inner launcher is called in: the argument
itself for scalars and pointers; for an aggregate, a pointer to the start of a new private region
that holds exactly the bytes the argument pointed at; for local memory the launcher allocates, a
pointer to the start of a new zeroed local region of the size the argument gives. New regions come
after those of `s`. -/
def Unpacked (c : DeviceConfig) (s u : Machine) (sl : ArgSlot) (arg v : Value) : Prop :=
  match sl.kind with
  | .byValue => ∃ src r k, arg = .ptr src ∧ s.regions[src.region]? = some r ∧ s.regions.size ≤ k ∧
      v = .ptr ⟨k, 0⟩ ∧ u.regions[k]? = some (Region.ofBytes privateAddressSpace (r.read src.offset sl.size))
  | .localMemory true => ∃ n k, arg = .int n ∧ s.regions.size ≤ k ∧ v = .ptr ⟨k, 0⟩ ∧
      u.regions[k]? = some (Region.zeroed c.addressSpaces.localSpace n)
  | _ => v = arg

/-- What the launcher hands on stays so in any machine that keeps the regions it had. -/
theorem Unpacked.mono {c : DeviceConfig} {s u u' : Machine} {sl : ArgSlot} {arg v : Value}
    (h : Unpacked c s u sl arg v) (hg : Grows u u') : Unpacked c s u' sl arg v := by
  have hkeep : ∀ {k r}, u.regions[k]? = some r → u'.regions[k]? = some r := fun hk =>
    (hg.regions _ (Array.getElem?_eq_some_iff.mp hk).1).trans hk
  rcases hkind : sl.kind with _ | _ | _ | ⟨_ | _⟩ <;> simp only [Unpacked, hkind] at h ⊢
  · exact h
  · exact h
  · obtain ⟨src, r, k, ha, hr, hk, hv, hu⟩ := h
    exact ⟨src, r, k, ha, hr, hk, hv, hkeep hu⟩
  · exact h
  · obtain ⟨n, k, ha, hk, hv, hu⟩ := h
    exact ⟨n, k, ha, hk, hv, hkeep hu⟩

/-- The slot `sl` of the buffer `B` holds the argument `arg` as the host packed it from the machine
`s`, for the parameter of `kernel` it carries, which the argument fits. -/
structure SlotPacked (c : DeviceConfig) (kernel : Function) (s : Machine) (B : ByteArray) (sl : ArgSlot)
    (arg : Value) : Prop where
  param : ∃ p, kernel.params[sl.index]? = some p ∧ SlotOf kernel c p sl
  fits : ArgFits c sl arg
  inside : sl.offset + sl.size ≤ B.size
  inRange : sl.offset + sl.size ≤ Word.max
  bytes : SlotBytes s sl arg (Bytes.slice B sl.offset sl.size)

namespace SlotPacked

variable {c : DeviceConfig} {kernel : Function} {s : Machine} {B : ByteArray} {sl : ArgSlot} {arg : Value}

/-- A word packed into a slot reads back, cut to any width up to the slot's. -/
theorem word_int (hpk : SlotPacked c kernel s B sl arg) {n : Nat} (harg : arg = .int n) {wd : Nat}
    (hwd : wd ≤ sl.size) : Bytes.ofLittleEndian (Bytes.slice B sl.offset wd) = n % 256 ^ wd := by
  have hb := hpk.bytes
  rw [harg] at hb
  simp only [SlotBytes] at hb
  rw [← Bytes.take_slice _ _ hwd, hb, Bytes.take_littleEndian _ hwd, Bytes.ofLittleEndian_littleEndian]

/-- A pointer packed into a slot other than an aggregate's reads back as its stored form, cut to
the slot's width. -/
theorem word_ptr (hpk : SlotPacked c kernel s B sl arg) {q : Pointer} (harg : arg = .ptr q)
    (hk : sl.kind ≠ .byValue) :
    ∃ raw, encodePtr s.ptrBytes q = .ok raw ∧
      Bytes.ofLittleEndian (Bytes.slice B sl.offset sl.size) = raw % 256 ^ sl.size := by
  have hb := hpk.bytes
  rw [harg] at hb
  unfold SlotBytes at hb
  split at hb
  · rename_i hk'
    exact absurd hk' hk
  · rename_i heq
    cases heq
  · rename_i heq _
    cases heq
    obtain ⟨raw, hraw, hdata⟩ := hb
    exact ⟨raw, hraw, by rw [hdata, Bytes.ofLittleEndian_littleEndian]⟩

/-- A slot of a pointer, or of a pointer to local memory the runtime allocates, reads back as the
argument: the null word as the word zero, a pointer stored without loss as the pointer. -/
theorem valueOfWord_ptr (hpk : SlotPacked c kernel s B sl arg) (hc : c.validate = none)
    (hsptr : s.ptrBytes = c.ptrBytes) (hk : sl.kind ≠ .byValue) (hsize : sl.size = c.ptrBytes)
    (hfit : arg = .int 0 ∨ ∃ q, arg = .ptr q ∧ q.Encodable c.ptrBytes) (sp : Nat) :
    valueOfWord c.ptrBytes (.ptr sp) (Bytes.ofLittleEndian (Bytes.slice B sl.offset c.ptrBytes)) = arg := by
  rcases hfit with rfl | ⟨q, rfl, hq⟩
  · rw [hpk.word_int rfl (le_of_eq hsize.symm), Nat.zero_mod]
    simp [valueOfWord, decodePtr_zero]
  · obtain ⟨-, hab, -⟩ := c.widths_of_validate hc
    have hpb : c.ptrBytes = 4 ∨ c.ptrBytes = 8 := by
      rcases hab with h | h <;> simp [DeviceConfig.ptrBytes, h]
    obtain ⟨raw, hraw, hlt, hdec⟩ := encodePtr_of_encodable hpb hq
    obtain ⟨raw', hraw', hword⟩ := hpk.word_ptr rfl hk
    rw [hsptr, hraw, Except.ok.injEq] at hraw'
    subst hraw'
    rw [← hsize, hword, hsize, Nat.mod_eq_of_lt hlt]
    simp [valueOfWord, hdec]

end SlotPacked

end ArgBufferLayout

namespace LauncherGen

open ArgBufferLayout KernelLaunch.Frame

variable {g : LauncherGen}

/-- Reading one slot of the argument buffer hands on what `Unpacked` says: the launcher's code for
the slot sets the slot's register to that value, sets no register below `next`, only grows the
machine, and a new region it makes is the last one. -/
theorem run_block_slotCode_unpacked {fuel : Nat} {sl : ArgSlot} {arg : Value} {next : Nat}
    {rest : List Inst} {fr : Frame} {s w t : Machine} {res : Flow × Frame} {kb space : Nat} {B : ByteArray}
    (hc : g.cfg.validate = none) (hptr : w.ptrBytes = g.cfg.ptrBytes) (hsptr : s.ptrBytes = g.cfg.ptrBytes)
    (hbuf : fr.args[0]? = some (.ptr ⟨kb, 0⟩)) (hB : w.regions[kb]? = some (Region.ofBytes space B))
    (hs : s.regions.size ≤ w.regions.size) (hpk : SlotPacked g.cfg g.kernel s B sl arg)
    (h : (block (call fuel) fr ((g.slotCode sl next).1 ++ rest)).run w = .ok res t) :
    ∃ fr' w' v, fr'.args = fr.args ∧ (∀ r < next, fr'.reg? r = fr.reg? r) ∧
      fr'.reg? (g.slotCode sl next).2 = some v ∧ Grows w w' ∧ Unpacked g.cfg s w' sl arg v ∧
      (sl.kind.allocates → ∃ k, v = .ptr ⟨k, 0⟩ ∧ w.regions.size ≤ k ∧ k < w'.regions.size) ∧
      (block (call fuel) fr' rest).run w' = .ok res t := by
  obtain ⟨p, hp, hslot⟩ := hpk.param
  have hty : (g.kernel.params[sl.index]?.map (·.ty)).getD .i32 = p.ty := by rw [hp]; rfl
  -- every slot is read through the buffer pointer, the launcher's first argument
  have hq : ∀ q, fr.value? (.param 0) = some (.ptr q) → q = ⟨kb, 0⟩ := by
    intro q hq
    rw [value?_param, hbuf, Option.some.injEq, Value.ptr.injEq] at hq
    exact hq.symm
  have hword : ∀ wd, wd ∈ [1, 2, 4, 8] → wd ≤ sl.size →
      ({ w with steps := w.steps + 1 } : Machine).wordAt? ((⟨kb, 0⟩ : Pointer).add sl.offset) wd =
        some (Bytes.ofLittleEndian (Bytes.slice B sl.offset wd)) := fun wd hw hle =>
    wordAt?_field hB hw (by have := hpk.inRange; omega) (by have := hpk.inside; omega)
  have hbind : ∀ v r, r < next → (fr.bind next v).reg? r = fr.reg? r := fun v r hr =>
    reg?_bind_ne fr v (by omega)
  unfold slotCode at h ⊢
  rw [hty] at h ⊢
  rcases hkind : sl.kind with _ | _ | _ | ⟨_ | _⟩ <;> simp only [hkind] at h ⊢
  · -- a scalar: one load of the word
    obtain ⟨hagg, hps, hsize⟩ := SlotOf.scalar hslot hkind
    obtain ⟨n, rfl, hlt⟩ : ∃ n, arg = .int n ∧ n < 256 ^ sl.size := by simpa [ArgFits, hkind] using hpk.fits
    obtain ⟨q, v, hqv, hv, hrest⟩ := run_block_load_cons h
    obtain rfl := hq q hqv
    obtain ⟨-, n', hn', rfl⟩ := run_loadValue_eq_ok hagg hv
    have hwidth : p.ty.size ({ w with steps := w.steps + 1 } : Machine).ptrBytes = sl.size := by
      rw [hsize]
      exact congrArg (Ty.size · p.ty) hptr
    rw [hwidth, hword _ (SlotOf.size_mem hc hslot (by simp [hkind])) (le_refl _), hpk.word_int rfl (le_refl _),
      Option.some.injEq, Nat.mod_eq_of_lt hlt] at hn'
    subst hn'
    have hval : valueOfWord g.cfg.ptrBytes p.ty n = .int n := by
      cases hp' : p.ty <;> simp_all [valueOfWord, Ty.pointerSpace]
    refine ⟨fr.bind next _, _, _, rfl, hbind _, reg?_bind_self .., grows_steps w, ?_,
      by simp [SlotKind.allocates], hrest⟩
    simp only [Unpacked, hkind, hptr, hval]
  · -- a pointer: one load of its stored form
    obtain ⟨sp, hsp, hsize⟩ := SlotOf.pointer hslot hkind
    have hfit : arg = .int 0 ∨ ∃ q, arg = .ptr q ∧ q.Encodable g.cfg.ptrBytes := by
      simpa [ArgFits, hkind] using hpk.fits
    obtain ⟨q, v, hqv, hv, hrest⟩ := run_block_load_cons h
    obtain rfl := hq q hqv
    obtain ⟨-, n', hn', rfl⟩ := run_loadValue_eq_ok (by simp [hsp, Ty.isAggregate]) hv
    have hwidth : p.ty.size ({ w with steps := w.steps + 1 } : Machine).ptrBytes = g.cfg.ptrBytes := by
      rw [hsp]
      exact hptr
    rw [hwidth, hword _ (hsize ▸ SlotOf.size_mem hc hslot (by simp [hkind])) (le_of_eq hsize.symm),
      Option.some.injEq] at hn'
    subst hn'
    refine ⟨fr.bind next _, _, _, rfl, hbind _, reg?_bind_self .., grows_steps w, ?_,
      by simp [SlotKind.allocates], hrest⟩
    simp only [Unpacked, hkind, hptr, hsp]
    exact hpk.valueOfWord_ptr hc hsptr (by simp [hkind]) hsize hfit sp
  · -- an aggregate: a new private region, and a copy of the slot into it
    obtain ⟨src, rfl⟩ : ∃ src, arg = .ptr src := by simpa [ArgFits, hkind] using hpk.fits
    obtain ⟨n, hn, h₁⟩ := run_block_alloca_cons h
    rw [value?_imm, Option.some.injEq, Value.int.injEq] at hn
    subst hn
    obtain ⟨dp, q, data, r, hdp, hqv, hread, hr, h₂⟩ := run_block_memcpy_cons h₁
    rw [value?_reg, reg?_bind_self, Option.some.injEq, Value.ptr.injEq] at hdp
    subst hdp
    obtain rfl := hq q (by simpa using hqv)
    have hkb : kb < w.regions.size := (Array.getElem?_eq_some_iff.mp hB).1
    obtain ⟨-, r', hr', -, -, rfl⟩ := run_readBytes_eq_ok.mp hread
    have hreg : ((⟨kb, 0⟩ : Pointer).add sl.offset).region = kb := rfl
    simp only [hreg, Array.getElem?_push, Nat.ne_of_lt hkb, if_false, hB, Option.some.injEq] at hr'
    subst hr'
    simp only [Array.getElem?_push_size, Option.some.injEq] at hr
    subst hr
    -- the copy holds the bytes the argument pointed at when it was packed
    obtain ⟨r₀, hr₀, hslice⟩ : ∃ r₀, s.regions[src.region]? = some r₀ ∧
        Bytes.slice B sl.offset sl.size = (r₀.read src.offset sl.size).toList := by
      simpa [SlotBytes, hkind] using hpk.bytes
    have hoff : ((⟨kb, 0⟩ : Pointer).add sl.offset).offset = sl.offset := by
      simp only [Pointer.add, Word.wrappingAdd, Nat.zero_add]
      exact Nat.mod_eq_of_lt (by have := hpk.inRange; unfold Word.max at this; unfold Word.size; omega)
    have hcopy : (Region.ofBytes space B).read ((⟨kb, 0⟩ : Pointer).add sl.offset).offset sl.size =
        r₀.read src.offset sl.size := by
      refine Bytes.eq_of_slice_eq (Region.size_read ..) (Region.size_read ..) ?_
      rw [Region.slice_read, hoff]
      change Bytes.slice B sl.offset sl.size = _
      rw [hslice, Bytes.toList_eq_slice, Region.size_read]
    have hg : Grows w { w with steps := w.steps + 1 + 1, regions := w.regions.push (Region.zeroed privateAddressSpace sl.size) } :=
      ((grows_steps w).trans (.push _ _)).trans (grows_steps _)
    refine ⟨fr.bind next _, _, _, rfl, hbind _, reg?_bind_self .., hg.set (le_refl _) _, ?_, fun _ =>
      ⟨w.regions.size, rfl, le_refl _, by simp⟩, h₂⟩
    simp only [Unpacked, hkind]
    refine ⟨src, r₀, w.regions.size, rfl, hr₀, hs, rfl, ?_⟩
    rw [Region.write_zeroed (Region.size_read ..), hcopy]
    simp
  · -- a pointer to local memory the runtime allocates: one load of its stored form
    obtain ⟨hloc, -, hsize⟩ := SlotOf.localMemory hslot hkind
    simp only [Bool.false_eq_true, if_false] at hsize
    have hfit : arg = .int 0 ∨ ∃ q, arg = .ptr q ∧ q.Encodable g.cfg.ptrBytes := by
      simpa [ArgFits, hkind] using hpk.fits
    obtain ⟨q, v, hqv, hv, hrest⟩ := run_block_load_cons h
    obtain rfl := hq q hqv
    obtain ⟨-, n', hn', rfl⟩ := run_loadValue_eq_ok (by simp [DeviceConfig.localPtr, Ty.isAggregate]) hv
    have hwidth : g.cfg.localPtr.size ({ w with steps := w.steps + 1 } : Machine).ptrBytes = g.cfg.ptrBytes :=
      hptr
    rw [hwidth, hword _ (hsize ▸ SlotOf.size_mem hc hslot (by simp [hkind])) (le_of_eq hsize.symm),
      Option.some.injEq] at hn'
    subst hn'
    refine ⟨fr.bind next _, _, _, rfl, hbind _, reg?_bind_self .., grows_steps w, ?_,
      by simp [SlotKind.allocates], hrest⟩
    simp only [Unpacked, hkind, hptr, DeviceConfig.localPtr]
    exact hpk.valueOfWord_ptr hc hsptr (by simp [hkind]) hsize hfit _
  · -- local memory the launcher allocates: a load of the size, then the allocation
    obtain ⟨n, rfl, hlt⟩ : ∃ n, arg = .int n ∧ n < 2 ^ g.cfg.sizeTWidth := by simpa [ArgFits, hkind] using hpk.fits
    obtain ⟨-, -, hsize⟩ := SlotOf.localMemory hslot hkind
    simp only [if_true] at hsize
    -- the size is read as a `size_t`, the low bytes of the slot
    obtain ⟨hst, -⟩ := g.cfg.widths_of_validate hc
    have hwidth : (Ty.sizeT g.cfg.sizeTWidth).size ({ w with steps := w.steps + 1 } : Machine).ptrBytes =
        g.cfg.sizeTBytes := by
      rcases hst with h | h <;> simp [h, Ty.sizeT, Ty.size, Ty.checkedSize, Ty.scalarSize, DeviceConfig.sizeTBytes]
    have hmem : g.cfg.sizeTBytes ∈ [1, 2, 4, 8] := by
      rcases hst with h | h <;> simp [h, DeviceConfig.sizeTBytes]
    have hpow : 2 ^ g.cfg.sizeTWidth = 256 ^ g.cfg.sizeTBytes := by
      rcases hst with h | h <;> simp [h, DeviceConfig.sizeTBytes]
    obtain ⟨q, v, hqv, hv, h₁⟩ := run_block_load_cons h
    obtain rfl := hq q hqv
    obtain ⟨-, n', hn', rfl⟩ := run_loadValue_eq_ok (ContextLayout.isAggregate_sizeT _) hv
    rw [hwidth, hword _ hmem (by rw [hsize]; exact le_max_left _ _), hpk.word_int rfl (by rw [hsize]; exact le_max_left _ _),
      ← hpow, Nat.mod_eq_of_lt hlt, Option.some.injEq] at hn'
    subst hn'
    have hval : valueOfWord ({ w with steps := w.steps + 1 } : Machine).ptrBytes (Ty.sizeT g.cfg.sizeTWidth) n =
        .int n := by
      rcases hst with h | h <;> simp [h, Ty.sizeT, valueOfWord]
    rw [hval] at h₁
    obtain ⟨n', hn', h₂⟩ := run_block_alloca_cons h₁
    rw [value?_reg, reg?_bind_self, Option.some.injEq, Value.int.injEq] at hn'
    subst hn'
    have hg : Grows w
        { w with steps := w.steps + 1 + 1, regions := w.regions.push (Region.zeroed g.cfg.addressSpaces.localSpace n) } :=
      (grows_steps w).trans ((grows_steps _).trans (.push _ _))
    refine ⟨(fr.bind next _).bind (next + 1) _, _, _, rfl,
      fun r hr => (reg?_bind_ne _ _ (by omega)).trans (hbind _ r hr), reg?_bind_self .., hg, ?_,
      fun _ => ⟨w.regions.size, rfl, le_refl _, by simp⟩, h₂⟩
    simp only [Unpacked, hkind]
    exact ⟨n, w.regions.size, rfl, hs, rfl, by simp⟩

end LauncherGen

end KernelLaunch
