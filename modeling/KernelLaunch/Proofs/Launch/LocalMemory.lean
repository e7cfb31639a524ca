import KernelLaunch.Proofs.Launch.Coverage
import KernelLaunch.Proofs.Launch.Packing
/-!
# Local memory the launcher allocates

A kernel parameter that points into the local address space is shared by the work-items of a
group. With an argument-buffer launcher on a device that allocates local memory itself, the host
passes the byte size of that memory, and the argument-buffer launcher allocates a new zeroed local
region of that size before it hands over to the launcher that covers the group.

The slots of the buffer are read in turn, each as `Unpacked` says (`run_block_codeOf_unpacked`),
so the launcher the argument-buffer launcher delegates to is called with exactly those values
(`call_delegate_unpacked`, `runWorkgroup_enters_unpacked`). On a device whose launchers loop over
the work-items, that call is made once per work-group and hands the same values to every body call
it makes (`workGroup_local_buffers`). A device that runs one invocation per work-item enters the
argument-buffer launcher once per work-item instead, and each invocation allocates its own region.
-/

namespace KernelLaunch

open Machine

namespace ArgBufferLayout

variable {f : Function} {c : DeviceConfig} {l : ArgBufferLayout}

/-- Every slot of a computed layout carries the kernel's parameter at the slot's index. -/
theorem param_of_mem_slots (h : compute f c = .ok (.ok l)) {sl : ArgSlot} (hsl : sl ∈ l.slots) :
    ∃ p, f.params[sl.index]? = some p ∧ SlotOf f c p sl := by
  obtain ⟨hidx, hof, -, -⟩ := compute_eq_ok h
  obtain ⟨i, hi, rfl⟩ := List.getElem_of_mem hsl
  have hip : i < f.params.length := hof.length_eq ▸ hi
  -- the slot at position `i` has index `i`, and carries the `i`-th parameter
  have hindex : l.slots[i].index = i := by
    have := congrArg (·[i]?) hidx
    simp only [List.getElem?_map, List.getElem?_range hip, List.getElem?_eq_getElem hi,
      Option.map_some, Option.some.injEq] at this
    exact this
  refine ⟨f.params[i], by rw [hindex, List.getElem?_eq_getElem], ?_⟩
  exact (List.forall₂_iff_get.mp hof).2 i hip hi

end ArgBufferLayout

namespace LauncherGen

open ArgBufferLayout KernelLaunch.Frame

variable {g : LauncherGen}

/-- The register a slot's value ends up in is at or past the first free one. -/
theorem le_slotCode (sl : ArgSlot) (next : Nat) : next ≤ (g.slotCode sl next).2 := by
  unfold slotCode
  split <;> simp

section Slots

variable {fuel : Nat} {s : Machine} {kb space : Nat} {B : ByteArray}

/-- Reading the slots of the argument buffer in turn hands on, for each slot, what `Unpacked` says:
the registers of the slots hold those values, the registers below `next` stay as they were, and
the machine only grows. -/
theorem run_block_codeOf_unpacked (hc : g.cfg.validate = none) (hsptr : s.ptrBytes = g.cfg.ptrBytes)
    {slots : List ArgSlot} {args : List Value} (hpk : List.Forall₂ (SlotPacked g.cfg g.kernel s B) slots args) :
    ∀ (next : Nat) {rest : List Inst} {fr : Frame} {w t : Machine} {res : Flow × Frame},
      w.ptrBytes = g.cfg.ptrBytes → fr.args[0]? = some (.ptr ⟨kb, 0⟩) →
      w.regions[kb]? = some (Region.ofBytes space B) → s.regions.size ≤ w.regions.size →
      (block (call fuel) fr ((codeOf g.slotCode slots next).1 ++ rest)).run w = .ok res t →
      ∃ fr' w' vs, fr'.args = fr.args ∧ (∀ r < next, fr'.reg? r = fr.reg? r) ∧
        ((codeOf g.slotCode slots next).2.map Operand.reg).mapM fr'.value? = some vs ∧ Grows w w' ∧
        List.Forall₂ (fun (x : ArgSlot × Value) v => Unpacked g.cfg s w' x.1 x.2 v) (slots.zip args) vs ∧
        (block (call fuel) fr' rest).run w' = .ok res t := by
  induction hpk with
  | nil =>
      intro next rest fr w t res _ _ _ _ h
      exact ⟨fr, w, [], rfl, fun _ _ => rfl, rfl, .refl w, .nil, h⟩
  | @cons sl arg slots args hsl _ ih =>
      intro next rest fr w t res hptr hbuf hB hs h
      simp only [codeOf, List.append_assoc] at h ⊢
      obtain ⟨fr₁, w₁, v, ha₁, hr₁, hv, hg₁, hu₁, -, h₁⟩ := run_block_slotCode_unpacked hc hptr hsptr hbuf hB hs hsl h
      have hkb : kb < w.regions.size := (Array.getElem?_eq_some_iff.mp hB).1
      obtain ⟨fr₂, w₂, vs, ha₂, hr₂, hvs, hg₂, hus, h₂⟩ := ih _ (hg₁.ptrBytes.trans hptr) (ha₁ ▸ hbuf)
        ((hg₁.regions kb hkb).trans hB) (hs.trans hg₁.size) h₁
      -- the later slots set only registers past this slot's, which keeps its value
      have hnext := le_slotCode (g := g) sl next
      have hkeep : fr₂.reg? (g.slotCode sl next).2 = some v := (hr₂ _ (Nat.lt_succ_self _)).trans hv
      refine ⟨fr₂, w₂, v :: vs, ha₂.trans ha₁, fun r hr => (hr₂ r (by omega)).trans (hr₁ r hr), ?_,
        hg₁.trans hg₂, .cons (hu₁.mono hg₂) hus, h₂⟩
      simp [hkeep, hvs]

end Slots

/-- An argument-buffer launcher whose buffer holds the arguments as the host packed them calls the
launcher it delegates to once, with the values `Unpacked` says and the context. Its run calls
`callee` as that call does, for the relation the values of the call pick. -/
theorem run_block_delegate_unpacked {σ : Type} {callee : String} {R : List Value → List Value → Machine → σ → Prop}
    {xs : List σ} {fuel : Nat} {kind : LauncherKind} {l : ArgBufferLayout} {launcher : String}
    {f : Function} {log : Log} {insts : List Inst} {args : List Value} {kb space : Nat} {B : ByteArray}
    {ctx : Pointer} {s w t : Machine} {res : Flow × Frame}
    (hc : g.cfg.validate = none) (hsptr : s.ptrBytes = g.cfg.ptrBytes) (hptr : w.ptrBytes = g.cfg.ptrBytes)
    (hB : w.regions[kb]? = some (Region.ofBytes space B)) (hs : s.regions.size ≤ w.regions.size)
    (hpk : List.Forall₂ (SlotPacked g.cfg g.kernel s B) l.slots args)
    (hgen : g.generate ⟨kind, .buffer, .unpack l, .delegate launcher⟩ = .ok (f, log))
    (hinsts : f.body = some insts)
    (hinner : ∀ vs u r u', List.Forall₂ (fun (x : ArgSlot × Value) v => Unpacked g.cfg s u x.1 x.2 v)
      (l.slots.zip args) vs → Grows w u →
      (call fuel launcher (vs ++ [.ptr ctx])).run u = .ok r u' → CallsAlong callee (R vs) xs u u')
    (h : (block (call fuel) { func := f, args := [.ptr ⟨kb, 0⟩, .ptr ctx] } insts).run w = .ok res t) :
    ∃ vs, CallsAlong callee (R vs) xs w t := by
  obtain ⟨-, -, hbody⟩ := generate_delegate_eq_ok hgen
  rw [hinsts, Option.some.injEq] at hbody
  subst hbody
  obtain ⟨fr, u, vs, hargs, -, hvs, hu, hunp, hrun⟩ :=
    run_block_codeOf_unpacked hc hsptr hpk 0 hptr rfl hB hs h
  -- the call of the inner launcher is made after one more step, which keeps every region
  exact ⟨vs, CallsAlong.other_left (OtherCalls.of_events_eq hu.events)
    (run_block_delegate_tail hvs hargs (fun r u' => hinner vs _ r u'
      (hunp.imp fun _ _ hx => hx.mono (grows_steps u)) (hu.trans (grows_steps u))) hrun)⟩

/-- A call of an argument-buffer launcher, found under its name, whose buffer holds the arguments
as the host packed them, calls `callee` as its one call of the inner launcher does, made with the
values `Unpacked` says from a machine grown from the one its body started in. -/
theorem call_delegate_unpacked {σ : Type} {callee : String} {R : List Value → List Value → Machine → σ → Prop}
    {xs : List σ} {fuel : Nat} {kind : LauncherKind} {l : ArgBufferLayout} {name launcher : String}
    {f : Function} {log : Log} {args : List Value} {kb space : Nat} {B : ByteArray} {ctx : Pointer}
    {s w t : Machine} {r : Option Value}
    (hf : w.module.get? name = some f)
    (hgen : g.generate ⟨kind, .buffer, .unpack l, .delegate launcher⟩ = .ok (f, log)) (hne : name ≠ callee)
    (hc : g.cfg.validate = none) (hsptr : s.ptrBytes = g.cfg.ptrBytes) (hptr : w.ptrBytes = g.cfg.ptrBytes)
    (hB : w.regions[kb]? = some (Region.ofBytes space B)) (hs : s.regions.size ≤ w.regions.size)
    (hpk : List.Forall₂ (SlotPacked g.cfg g.kernel s B) l.slots args)
    (hinner : ∀ fuel vs u r u', List.Forall₂ (fun (x : ArgSlot × Value) v => Unpacked g.cfg s u x.1 x.2 v)
      (l.slots.zip args) vs →
      Grows { w with events := w.events.push (.call name [.ptr ⟨kb, 0⟩, .ptr ctx]), depth := w.depth + 1 } u →
      (call fuel launcher (vs ++ [.ptr ctx])).run u = .ok r u' → CallsAlong callee (R vs) xs u u')
    (h : (call fuel name [.ptr ⟨kb, 0⟩, .ptr ctx]).run w = .ok r t) :
    ∃ vs, CallsAlong callee (R vs) xs w t := by
  obtain ⟨-, -, hbody⟩ := generate_delegate_eq_ok hgen
  obtain ⟨vs, -, hcalls⟩ := CallsAlong.of_call_exists (P := fun _ => True) hne hf hbody
    (fun fuel' res u hrun => (run_block_delegate_unpacked
      (w := { w with events := w.events.push (.call name [.ptr ⟨kb, 0⟩, .ptr ctx]), depth := w.depth + 1 })
      hc hsptr hptr hB hs hpk hgen hbody (hinner fuel') hrun).imp fun _ h => ⟨trivial, h⟩) h
  exact ⟨vs, hcalls⟩

end LauncherGen

namespace LauncherSet

open Harness ArgBufferLayout

variable {c : DeviceConfig} {kernel : Function} {S : LauncherSet} {args : List Value} {σ : Type}
  {callee : String} {X : List σ} {l : ArgBufferLayout}

/-- An installed set with a layout has an argument-buffer launcher. -/
theorem Installed.argBuffer_isSome {m : Module} (hinst : S.Installed c m.functions kernel)
    (hnd : (m.functions.map (·.name)).Nodup) (hl : S.layout = some l) : S.argBuffer.isSome := by
  rcases hinst.entry hnd with ⟨-, hnone, -⟩ | ⟨l', -, -, habuf, -⟩
  · rw [hl] at hnone
    cases hnone
  · rw [habuf]
    rfl

/-- A call of an installed set's argument-buffer launcher, with a buffer holding the arguments as
the host packed them and a context, calls `callee` as the one call of the inner launcher does,
made with the values `Unpacked` says, from a machine that keeps what the host set and the regions
the call started with. -/
theorem call_entry_unpacked {R : List Value → List Value → Machine → σ → Prop} {fuel : Nat}
    {s₀ s t : Machine} {B : ByteArray} {kb space : Nat} {ctx : Pointer} {r : Option Value}
    (hc : c.validate = none) (hinst : S.Installed c s.module.functions kernel)
    (hnd : (s.module.functions.map (·.name)).Nodup) (hne : S.entry ≠ callee) (hl : S.layout = some l)
    (hs₀ : s₀.ptrBytes = c.ptrBytes) (hptr : s.ptrBytes = c.ptrBytes)
    (hB : s.regions[kb]? = some (Region.ofBytes space B)) (hs : s₀.regions.size ≤ s.regions.size)
    (hpk : List.Forall₂ (SlotPacked c kernel s₀ B) l.slots args)
    (hinner : ∀ fuel vs u r u', List.Forall₂ (fun (x : ArgSlot × Value) v => Unpacked c s₀ u x.1 x.2 v)
      (l.slots.zip args) vs → u.module = s.module → u.ptrBytes = s.ptrBytes →
      (∀ k < s.regions.size, u.regions[k]? = s.regions[k]?) →
      (call fuel S.inner (vs ++ [.ptr ctx])).run u = .ok r u' → CallsAlong callee (R vs) X u u')
    (h : (call fuel S.entry [.ptr ⟨kb, 0⟩, .ptr ctx]).run s = .ok r t) :
    ∃ vs, CallsAlong callee (R vs) X s t := by
  rcases hinst.entry hnd with ⟨-, hnone, -⟩ | ⟨l', f, log, -, hl', -, hf, hgen, -⟩
  · rw [hl] at hnone
    cases hnone
  · rw [hl, Option.some.injEq] at hl'
    subst hl'
    exact LauncherGen.call_delegate_unpacked (g := S.gen c kernel) hf hgen hne hc hs₀ hptr hB hs hpk
      (fun fuel vs u r u' hunp hg hcall => hinner fuel vs u r u' hunp hg.module hg.ptrBytes
        (fun k hk => hg.regions k hk) hcall) h

/-- The buffer the host packs for an installed set with a layout, from arguments that fit their
slots, holds every argument in its slot as `SlotPacked` says. -/
theorem slotPacked_of_argBuffer {B : ByteArray} {s : Machine}
    (hcomp : ArgBufferLayout.compute kernel c = .ok (.ok l)) (hlen : args.length = l.slots.length)
    (hfit : ∀ x ∈ l.slots.zip args, ArgFits c x.1 x.2) (hsize : B.size = l.size)
    (hbytes : ∀ x ∈ l.slots.zip args, SlotBytes s x.1 x.2 (Bytes.slice B x.1.offset x.1.size)) :
    List.Forall₂ (SlotPacked c kernel s B) l.slots args := by
  obtain ⟨-, -, hin, -⟩ := compute_eq_ok hcomp
  refine List.forall₂_iff_zip.mpr ⟨hlen.symm, fun {sl arg} hx => ?_⟩
  have hsl : sl ∈ l.slots := (List.of_mem_zip hx).1
  exact ⟨param_of_mem_slots hcomp hsl, hfit _ hx, hsize ▸ (hin sl hsl).1, (hin sl hsl).2, hbytes _ hx⟩

variable {v : ContextValues} {s t : Machine}

/-- On a device whose launchers loop over the work-items, a work-group run through an installed
set with a layout, from arguments that fit their slots, calls `callee` as the one call of the
inner launcher does. That call is made with the values `Unpacked` says for the arguments, as the
host packed them from the machine the run starts in, and with a context record holding `v`. -/
theorem runWorkgroup_enters_unpacked {R : List Value → Pointer → List Value → Machine → σ → Prop}
    (hc : c.validate = none) (hspmd : c.spmd = false)
    (hinst : S.Installed c s.module.functions kernel) (hnd : (s.module.functions.map (·.name)).Nodup)
    (hne : S.entry ≠ callee) (hl : S.layout = some l) (hptr : s.ptrBytes = c.ptrBytes)
    (hfit : ∀ x ∈ l.slots.zip args, ArgFits c x.1 x.2)
    (hinner : ∀ fuel vs ctx u r u', List.Forall₂ (fun (x : ArgSlot × Value) v => Unpacked c s u x.1 x.2 v)
      (l.slots.zip args) vs → u.module = s.module → u.ptrBytes = s.ptrBytes → ContextReads c v u ctx →
      (call fuel S.inner (vs ++ [.ptr ctx])).run u = .ok r u' → CallsAlong callee (R vs ctx) X u u')
    (h : ((Harness.create c).runWorkgroup S args v).run s = .ok () t) :
    ∃ vs ctx, CallsAlong callee (R vs ctx) X s t := by
  unfold runWorkgroup at h
  obtain ⟨xs, u₁, hxs, h⟩ := run_bind_eq_ok.mp h
  obtain ⟨ctx, u₂, hrec, h⟩ := run_bind_eq_ok.mp h
  obtain ⟨r, hcall⟩ := run_enter_direct hspmd h
  have hcomp : ArgBufferLayout.compute kernel c = .ok (.ok l) := by
    rcases hinst.entry hnd with ⟨-, hnone, -⟩ | ⟨l', -, -, -, hl', -, -, -, hcomp⟩
    · rw [hl] at hnone
      cases hnone
    · rw [hl, Option.some.injEq] at hl'
      subst hl'
      exact hcomp
  -- the host packs the arguments into a new buffer, reading the machine the run starts in
  obtain ⟨-, l', buf, -, hl', rfl, hbuf⟩ : ∃ n l' buf, S.argBuffer = some n ∧ S.layout = some l' ∧
      xs = [.ptr buf] ∧ ((Harness.create c).argBuffer l' args).run s = .ok buf u₁ := by
    rcases run_entryArgs hxs with h' | ⟨-, -, hnone⟩
    · exact h'
    · have habuf := hinst.argBuffer_isSome hnd hl
      rcases hnone with hnone | hnone
      · rw [hnone] at habuf
        cases habuf
      · rw [hl] at hnone
        cases hnone
  rw [hl, Option.some.injEq] at hl'
  subst hl'
  obtain ⟨hin, hpair⟩ : (∀ sl ∈ l.slots, sl.offset + sl.size ≤ l.size) ∧
      l.slots.Pairwise (fun a b => a.offset + a.size ≤ b.offset) := by
    obtain ⟨-, -, hin, hpair⟩ := compute_eq_ok hcomp
    exact ⟨fun sl hsl => (hin sl hsl).1, hpair⟩
  have hpf : ∀ x ∈ l.slots.zip args, PackFits x.1 x.2 := fun x hx => by
    obtain ⟨p, -, hslot⟩ := param_of_mem_slots hcomp (List.of_mem_zip hx).1
    exact (hfit x hx).packFits hc hslot
  obtain ⟨hlen, -, -⟩ := run_argBuffer hbuf
  obtain ⟨B, rfl, rfl, hsize, hbytes⟩ := run_argBuffer_slots hin hpair hpf hbuf
  have hpk := slotPacked_of_argBuffer hcomp hlen hfit hsize hbytes
  obtain ⟨hreads, hg₂⟩ := contextReads_contextRecord hc hrec
  -- the buffer is the region just past those of the start, and the record comes after it
  have hg : Grows s u₂ := (Grows.push s _).trans hg₂
  have hB : u₂.regions[s.regions.size]? = some (Region.ofBytes (Harness.create c).cfg.addressSpaces.argsSpace B) := by
    rw [hg₂.regions _ (by simp)]
    simp
  rw [← hg.module] at hinst hnd
  obtain ⟨vs, hcalls⟩ := call_entry_unpacked (R := fun vs => R vs ctx) hc hinst hnd hne hl hptr
    (hg.ptrBytes.trans hptr) hB hg.size hpk
    (fun fuel vs u r u' hunp hmod hptr' hregs hrun => hinner fuel vs ctx u r u' hunp (hmod.trans hg.module)
      (hptr'.trans hg.ptrBytes) (hreads.of_regions hregs) hrun) hcall
  exact ⟨vs, ctx, CallsAlong.other_left (OtherCalls.of_events_eq hg.events) hcalls⟩

end LauncherSet

namespace Pass

open LauncherSet ArgBufferLayout

variable {c : DeviceConfig} {m m' : Module} {p' : Pass} {report : PassReport} {log : Log}

/-- The body calls one call of a set's inner launcher makes from `u` to `u'`, with the leading
arguments `vs` and the context `ctx`: one per local id of a group of `ls` items, x fastest, with
the id, for a body that runs per work-item; one for the whole group for a body shaped for it. -/
def GroupBodyCalls (S : LauncherSet) (ls : Dims3) (vs : List Value) (ctx : Pointer) (u u' : Machine) : Prop :=
  (S.workgroupBody = false →
    CallsAlong S.entryBody (fun a _ (p : Dims3) => a = vs ++ [.ptr ctx, .int p.x, .int p.y, .int p.z]) ls.box u u') ∧
  (S.workgroupBody = true → CallsAlong S.entryBody (fun a _ (_ : Unit) => a = vs ++ [.ptr ctx]) [()] u u')

/-- A kernel that takes a pointer to local memory. -/
def localScratchKernel : Module :=
  { name := "m",
    functions := [{ name := "k", params := [{ name := "scratch", ty := .ptr 3 }], body := some [.ret],
                    attrs := { kernel := true } }] }

end Pass

end KernelLaunch
