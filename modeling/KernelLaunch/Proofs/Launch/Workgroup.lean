import KernelLaunch.Proofs.Launch.Harness
import KernelLaunch.Proofs.Pass.Installed

/-!
# Entering a work-group

How the host reaches the launcher that covers one work-group. The host packs the arguments when
the set has an argument-buffer launcher, writes a context record, and calls the set's entry; the
argument-buffer launcher unpacks the buffer and calls the inner launcher, the fast one if the set
has one and the default one otherwise. The lemmas here reduce every launch to calls of that inner
launcher: `call_entry` for one call of the entry, `runWorkgroup_enters` for a work-group on a
device whose launchers loop over the work-items, `runWorkgroup_enters_each` for one invocation per
work-item, and `runGrid_enters_each` for the host's loop over the groups.

Each call of the inner launcher gets the arguments themselves when there is no argument buffer,
and a context record the host wrote, whose every element reads back as its value cut to its width
(`ContextReads`).
-/

namespace KernelLaunch

open Machine

namespace Harness

variable {c : DeviceConfig} {v : ContextValues}

/-- Every element of the context record at `ctx` reads, at its field's width, as its value in `v`
cut to that width. -/
def ContextReads (c : DeviceConfig) (v : ContextValues) (u : Machine) (ctx : Pointer) : Prop :=
  ∀ f : ContextField, ∀ d < f.len,
    u.wordAt? (ctx.add ((ContextLayout.ofDevice c).offset f d)) ((ContextLayout.ofDevice c).width f) =
      some (v.get f d % 256 ^ (ContextLayout.ofDevice c).width f)

/-- A record that reads back lies in a region of the machine. -/
theorem ContextReads.region_lt {u : Machine} {ctx : Pointer} (h : ContextReads c v u ctx) :
    ctx.region < u.regions.size := by
  have hread := h .workDim 0 (by decide)
  unfold Machine.wordAt? at hread
  cases hr : u.regions[ctx.region]? with
  | none => simp [Pointer.add, hr] at hread
  | some r => exact (Array.getElem?_eq_some_iff.mp hr).1

/-- A record reads the same in every machine that keeps the regions it had. -/
theorem ContextReads.of_regions {u u' : Machine} {ctx : Pointer} (h : ContextReads c v u ctx)
    (hr : ∀ k < u.regions.size, u'.regions[k]? = u.regions[k]?) : ContextReads c v u' ctx := by
  intro f d hd
  rw [← h f d hd]
  simp only [Machine.wordAt?, Pointer.add, hr ctx.region h.region_lt]

/-- A context record written by the host for a validated device reads back its values, from a
new region. -/
theorem contextReads_contextRecord (hc : c.validate = none) {s t : Machine} {ctx : Pointer}
    (hrun : ((Harness.create c).contextRecord v).run s = .ok ctx t) :
    ContextReads c v t ctx ∧ Grows s t := by
  obtain ⟨bytes, hbytes, rfl, rfl⟩ := run_contextRecord hrun
  have hr : ({ s with regions := s.regions.push (Region.ofBytes c.addressSpaces.contextSpace bytes) } :
      Machine).regions[s.regions.size]? = some (Region.ofBytes c.addressSpaces.contextSpace bytes) := by
    simp
  exact ⟨fun f d hd => wordAt?_context hc hbytes hr hd, Grows.push s _⟩

variable {h : Harness} {S : LauncherSet} {args : List Value}

/-- The entry launcher's arguments leave the machine grown, and are the arguments themselves or,
for a set with an argument-buffer launcher, one pointer to the buffer. -/
theorem run_entryArgs_cases {s t : Machine} {xs : List Value} (hrun : (h.entryArgs S args).run s = .ok xs t)
    (hlayout : S.argBuffer.isSome → S.layout.isSome) :
    Grows s t ∧ (S.argBuffer = none → xs = args) ∧ (S.argBuffer.isSome → ∃ buf, xs = [.ptr buf]) := by
  rcases run_entryArgs hrun with ⟨n, l, buf, habuf, -, rfl, hbuf⟩ | ⟨rfl, rfl, hnone⟩
  · obtain ⟨-, -, bytes, rfl⟩ := run_argBuffer hbuf
    refine ⟨Grows.push s _, fun hnone => ?_, fun _ => ⟨buf, rfl⟩⟩
    rw [habuf] at hnone
    cases hnone
  · refine ⟨Grows.refl _, fun _ => rfl, fun hsome => ?_⟩
    rcases hnone with hnone | hnone
    · rw [hnone] at hsome
      cases hsome
    · have := hlayout hsome
      rw [hnone] at this
      cases this

end Harness

namespace LauncherSet

open Harness

variable {c : DeviceConfig} {kernel : Function} {S : LauncherSet} {args : List Value}
  {σ : Type} {callee : String} {R : List Value → Machine → σ → Prop} {X : List σ}

/-- An installed set has an argument buffer layout exactly when it has an argument-buffer
launcher. -/
theorem Installed.layout_isSome {m : Module} (hinst : S.Installed c m.functions kernel)
    (hnd : (m.functions.map (·.name)).Nodup) : S.argBuffer.isSome → S.layout.isSome := by
  rcases hinst.entry hnd with ⟨hnone, -, -⟩ | ⟨l, -, -, -, hl, -⟩
  · rw [hnone]
    intro h
    cases h
  · rw [hl]
    exact fun _ => rfl

/-- A call of an installed set's entry with the entry arguments and a context calls `callee` as
the one call of the inner launcher does, from a machine that keeps what the host set and the
regions it had, for the relation the arguments of that call pick: the arguments themselves when
there is no argument buffer. -/
theorem call_entry {R : List Value → List Value → Machine → σ → Prop} {fuel : Nat} {xs : List Value}
    {ctx : Pointer} {s t : Machine} {r : Option Value}
    (hinst : S.Installed c s.module.functions kernel) (hnd : (s.module.functions.map (·.name)).Nodup)
    (hne : S.entry ≠ callee)
    (hxs : S.argBuffer = none → xs = args) (hbuf : S.argBuffer.isSome → ∃ buf, xs = [.ptr buf])
    (hinner : ∀ fuel vs u r u', u.module = s.module → u.ptrBytes = s.ptrBytes → u.localId = s.localId →
      (∀ k < s.regions.size, u.regions[k]? = s.regions[k]?) →
      (call fuel S.inner (vs ++ [.ptr ctx])).run u = .ok r u' → CallsAlong callee (R vs) X u u')
    (h : (call fuel S.entry (xs ++ [.ptr ctx])).run s = .ok r t) :
    ∃ vs, (S.argBuffer = none → vs = args) ∧ CallsAlong callee (R vs) X s t := by
  rcases hinst.entry hnd with ⟨hnone, -, hentry⟩ | ⟨l, f, log, habuf, -, -, hf, hgen, -⟩
  · rw [hentry, hxs hnone] at h
    exact ⟨args, fun _ => rfl, hinner fuel args s r t rfl rfl rfl (fun _ _ => rfl) h⟩
  · obtain ⟨buf, rfl⟩ := hbuf (by rw [habuf]; rfl)
    -- the argument-buffer launcher unpacks the buffer and delegates to the inner launcher
    obtain ⟨vs, -, hcalls⟩ := LauncherGen.call_delegate (g := S.gen c kernel) (R := R) hf hgen hne
      (fun fuel vs u r u' _ hg hcall => hinner fuel vs u r u' hg.module hg.ptrBytes hg.localId
        (fun k hk => hg.regions k hk) hcall) h
    refine ⟨vs, fun h' => ?_, hcalls⟩
    rw [habuf] at h'
    cases h'

variable {v : ContextValues} {s t : Machine}

/-- On a device whose launchers loop over the work-items, a work-group run through an installed
set calls `callee` as the one call of the inner launcher does, made with a context record holding
`v`, for the relation the arguments and the record of that call pick: the arguments themselves
when there is no argument buffer. -/
theorem runWorkgroup_enters {R : List Value → Pointer → List Value → Machine → σ → Prop}
    (hc : c.validate = none) (hspmd : c.spmd = false)
    (hinst : S.Installed c s.module.functions kernel) (hnd : (s.module.functions.map (·.name)).Nodup)
    (hne : S.entry ≠ callee)
    (hinner : ∀ fuel vs ctx u r u', u.module = s.module → u.ptrBytes = s.ptrBytes → ContextReads c v u ctx →
      (call fuel S.inner (vs ++ [.ptr ctx])).run u = .ok r u' → CallsAlong callee (R vs ctx) X u u')
    (h : ((Harness.create c).runWorkgroup S args v).run s = .ok () t) :
    ∃ vs ctx, (S.argBuffer = none → vs = args) ∧ CallsAlong callee (R vs ctx) X s t := by
  unfold runWorkgroup at h
  obtain ⟨xs, u₁, hxs, h⟩ := run_bind_eq_ok.mp h
  obtain ⟨ctx, u₂, hrec, h⟩ := run_bind_eq_ok.mp h
  obtain ⟨r, hcall⟩ := run_enter_direct hspmd h
  obtain ⟨hg₁, hargs, hbuf⟩ := run_entryArgs_cases hxs (hinst.layout_isSome hnd)
  obtain ⟨hreads, hg₂⟩ := contextReads_contextRecord hc hrec
  -- packing the arguments and writing the record add regions and record no call
  have hg : Grows s u₂ := hg₁.trans hg₂
  rw [← hg.module] at hinst hnd
  obtain ⟨vs, hvs, hcalls⟩ := call_entry (R := fun vs => R vs ctx) hinst hnd hne hargs hbuf
    (fun fuel vs u r u' hmod hptr _ hregs hrun =>
      hinner fuel vs ctx u r u' (hmod.trans hg.module) (hptr.trans hg.ptrBytes) (hreads.of_regions hregs) hrun)
    hcall
  exact ⟨vs, ctx, hvs, CallsAlong.other_left (OtherCalls.of_events_eq hg.events) hcalls⟩

/-- On a device that runs one invocation per work-item, a work-group run through an installed set
calls `callee` along the local ids of the group, x fastest, as the calls of the inner launcher do,
each made with the local id of its invocation, the same context, and arguments that are the
arguments themselves when there is no argument buffer. -/
theorem runWorkgroup_enters_each {R : Pointer → List Value → List Value → Machine → Dims3 → Prop}
    (hspmd : c.spmd = true) (hinst : S.Installed c s.module.functions kernel)
    (hnd : (s.module.functions.map (·.name)).Nodup) (hne : S.entry ≠ callee)
    (hinner : ∀ p : Dims3, p.x < v.localSize.x → p.y < v.localSize.y → p.z < v.localSize.z →
      ∀ fuel vs ctx u r u', u.module = s.module → u.localId = p →
      (call fuel S.inner (vs ++ [.ptr ctx])).run u = .ok r u' → CallsAlong callee (R ctx vs) [p] u u')
    (h : ((Harness.create c).runWorkgroup S args v).run s = .ok () t) :
    ∃ ctx, CallsAlong callee (fun a u p => ∃ vs, (S.argBuffer = none → vs = args) ∧ R ctx vs a u p)
      v.localSize.box s t := by
  unfold runWorkgroup at h
  obtain ⟨xs, u₁, hxs, h⟩ := run_bind_eq_ok.mp h
  obtain ⟨ctx, u₂, hrec, h⟩ := run_bind_eq_ok.mp h
  obtain ⟨hg₁, hargs, hbuf⟩ := run_entryArgs_cases hxs (hinst.layout_isSome hnd)
  obtain ⟨bytes, -, -, hu₂⟩ := run_contextRecord hrec
  have hg : Grows s u₂ := hg₁.trans (hu₂ ▸ Grows.push u₁ _)
  have hloop := run_enter_spmd hspmd h
  -- every invocation keeps the module, so the set stays installed for the next one
  refine ⟨ctx, CallsAlong.other_left (OtherCalls.of_events_eq hg.events)
    (run_forBox (I := fun u => u.module = s.module) (fun p hx hy hz w w' hw hrun => ?_) hg.module hloop).2⟩
  obtain ⟨_, w₁, hmod, hrun⟩ := run_bind_eq_ok.mp hrun
  rw [EStateM.run_modify, EStateM.Result.ok.injEq] at hmod
  obtain ⟨-, rfl⟩ := hmod
  obtain ⟨r, w₂, hcall, hpure⟩ := run_bind_eq_ok.mp hrun
  obtain ⟨-, rfl⟩ := run_pure_eq_ok.mp hpure
  have hinst' : S.Installed c w.module.functions kernel := hw ▸ hinst
  have hnd' : (w.module.functions.map (·.name)).Nodup := hw ▸ hnd
  obtain ⟨vs, hvs, hcalls⟩ := call_entry (s := { w with localId := p }) (R := R ctx) hinst' hnd' hne hargs hbuf
    (fun fuel vs u r u' hmod _ hid _ hrun => hinner p hx hy hz fuel vs ctx u r u' (hmod.trans hw) hid hrun)
    hcall
  exact ⟨(keeps_call _ _ _ _ _ _ hcall).module.trans hw,
    CallsAlong.other_left (u := { w with localId := p }) (OtherCalls.of_events_eq rfl)
      (hcalls.mono fun a u p hR => ⟨vs, hvs, hR⟩)⟩

/-- Without a grid launcher, and on a device whose launchers loop over the work-items, a grid run
through an installed set calls `callee` along the groups of the grid, x fastest, as the calls of
the inner launcher do, each made with a context record holding `v` with that group's id, and
with arguments that are the arguments themselves when there is no argument buffer. -/
theorem runGrid_enters_each {R : List Value → Pointer → List Value → Machine → Dims3 → Prop}
    (hc : c.validate = none) (hspmd : c.spmd = false) (hgrid : S.grid = none)
    (hinst : S.Installed c s.module.functions kernel) (hnd : (s.module.functions.map (·.name)).Nodup)
    (hne : S.entry ≠ callee)
    (hinner : ∀ g : Dims3, g.x < v.numGroups.x → g.y < v.numGroups.y → g.z < v.numGroups.z →
      ∀ fuel vs ctx u r u', u.module = s.module → u.ptrBytes = s.ptrBytes →
      ContextReads c { v with groupId := g } u ctx → (call fuel S.inner (vs ++ [.ptr ctx])).run u = .ok r u' →
      CallsAlong callee (R vs ctx) [g] u u')
    (h : ((Harness.create c).runGrid S args v).run s = .ok () t) :
    CallsAlong callee (fun a u g => ∃ vs ctx, (S.argBuffer = none → vs = args) ∧ R vs ctx a u g)
      v.numGroups.box s t := by
  unfold runGrid at h
  obtain ⟨xs, u₁, hxs, h⟩ := run_bind_eq_ok.mp h
  rw [hgrid] at h
  obtain ⟨hg₁, hargs, hbuf⟩ := run_entryArgs_cases hxs (hinst.layout_isSome hnd)
  -- every group keeps the module and the pointer width, so the set stays installed for the next one
  refine CallsAlong.other_left (OtherCalls.of_events_eq hg₁.events)
    (run_forBox (I := fun u => u.module = s.module ∧ u.ptrBytes = s.ptrBytes)
      (fun g hx hy hz w w' hw hrun => ?_) ⟨hg₁.module, hg₁.ptrBytes⟩ h).2
  obtain ⟨ctx, w₁, hrec, hrun⟩ := run_bind_eq_ok.mp hrun
  obtain ⟨hreads, hg⟩ := contextReads_contextRecord hc hrec
  obtain ⟨r, hcall⟩ := run_enter_direct hspmd hrun
  have hw₁ : w₁.module = s.module := hg.module.trans hw.1
  have hp₁ : w₁.ptrBytes = s.ptrBytes := hg.ptrBytes.trans hw.2
  have hinst' : S.Installed c w₁.module.functions kernel := by rw [hw₁]; exact hinst
  have hnd' : (w₁.module.functions.map (·.name)).Nodup := by rw [hw₁]; exact hnd
  obtain ⟨vs, hvs, hcalls⟩ := call_entry (R := fun vs => R vs ctx) hinst' hnd' hne hargs hbuf
    (fun fuel vs u r u' hmod hptr _ hregs hrun => hinner g hx hy hz fuel vs ctx u r u' (hmod.trans hw₁)
      (hptr.trans hp₁) (hreads.of_regions hregs) hrun) hcall
  have hfix := keeps_call _ _ _ _ _ _ hcall
  refine ⟨⟨hfix.module.trans hw₁, hfix.ptrBytes.trans hp₁⟩,
    CallsAlong.other_left (OtherCalls.of_events_eq hg.events) ?_⟩
  exact hcalls.mono fun a u x hR => ⟨vs, ctx, hvs, hR⟩

end LauncherSet

end KernelLaunch
