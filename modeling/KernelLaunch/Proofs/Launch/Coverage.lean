import KernelLaunch.Proofs.Launch.Workgroup

/-!
# How often a launch calls the body

A kernel with work-group barriers gets a body shaped for the whole group, and its launchers call
that body once. On a device whose launchers loop over the work-items, `shaped_body_called_once_per_group`
says what that gives for a launch: a work-group run calls the body once, and a grid run without a
grid launcher calls it once per group, x fastest, each time with a context record holding that
group's id. On a device that runs one invocation per work-item the host enters the launcher once
per work-item, so there the shaped body is called once per work-item, not once per group.
-/

namespace KernelLaunch

open Machine Harness

namespace LauncherSet

variable {c : DeviceConfig} {kernel : Function} {S : LauncherSet}

/-- A call of the inner launcher of an installed set whose body is shaped for the whole group calls
that body once, with the launcher's arguments and context, from a machine that keeps the regions
the call started with. -/
theorem call_inner_shaped {σ : Type} (x : σ) {fuel : Nat} {vs : List Value} {ctx : Pointer}
    {u u' : Machine} {r : Option Value} (hinst : S.Installed c u.module.functions kernel)
    (hnd : (u.module.functions.map (·.name)).Nodup) (hshaped : S.workgroupBody = true)
    (h : (call fuel S.inner (vs ++ [.ptr ctx])).run u = .ok r u') :
    CallsAlong S.entryBody (fun a w _ => a = vs ++ [.ptr ctx] ∧
      ∀ k < u.regions.size, w.regions[k]? = u.regions[k]?) [x] u u' := by
  obtain ⟨kind, bounds, f, log, -, hf, -, hgen, -, -⟩ := hinst.inner hnd
  have hgen' : (S.gen c kernel).generate ⟨kind, .direct, .forward, .once S.entryBody⟩ = .ok (f, log) := by
    simpa [Iteration.perGroup, hshaped] using hgen
  exact (LauncherGen.call_once x hf hgen' (hinst.names_apart hnd).1 h).mono
    fun a w _ ⟨ha, hg⟩ => ⟨ha, fun k hk => hg.regions k hk⟩

/-- A call of the inner launcher of an installed set whose body runs per work-item, on a device
whose launchers loop over the work-items, calls the body once per local id of the group, x
fastest, with the launcher's arguments, its context and the id. The context it is given must hold
a local size that fits `size_t`, is one past the device's dimensions and, for a set with a fast
launcher, is the kernel's fixed size. -/
theorem call_inner_workItems {v : ContextValues} (hc : c.validate = none) (hspmd : c.spmd = false) {fuel : Nat} {vs : List Value}
    {ctx : Pointer} {u u' : Machine} {r : Option Value} (hinst : S.Installed c u.module.functions kernel)
    (hnd : (u.module.functions.map (·.name)).Nodup) (hitem : S.workgroupBody = false)
    (hptr : u.ptrBytes = c.ptrBytes) (hreads : ContextReads c v u ctx)
    (hfits : ∀ d < 3, v.localSize.getD d 0 < 256 ^ (ContextLayout.ofDevice c).width .localSize)
    (hone : ∀ d < 3, c.maxWorkItemDims ≤ d → v.localSize.getD d 0 = 1)
    (hfast : S.fast.isSome → v.localSize = kernel.attrs.reqdWorkGroupSize.getD c.localSize)
    (h : (call fuel S.inner (vs ++ [.ptr ctx])).run u = .ok r u') :
    CallsAlong S.entryBody (fun a _ p => a = vs ++ [.ptr ctx, .int p.x, .int p.y, .int p.z])
      v.localSize.box u u' := by
  obtain ⟨kind, bounds, f, log, -, hf, -, hgen, hbounds, -⟩ := hinst.inner hnd
  have hgen' : (S.gen c kernel).generate ⟨kind, .direct, .forward, .workItems S.entryBody bounds⟩ =
      .ok (f, log) := by
    simpa [Iteration.perGroup, hitem, hspmd] using hgen
  have hsizeT : (ContextLayout.ofDevice c).fieldTy .localSize = Ty.sizeT c.sizeTWidth :=
    ContextLayout.fieldTy_ofDevice _
  refine LauncherGen.call_workItems hf hgen' (hinst.names_apart hnd).1 ?_ ?_ hone ?_ ?_ h
  · exact hsizeT ▸ ContextLayout.isAggregate_sizeT _
  · exact hsizeT ▸ ContextLayout.pointerSpace_sizeT _
  · -- fixed bounds come with a fast launcher, whose size the local size is
    intro size hsize d _
    rcases hbounds with hctx | ⟨size', hsize', hfixed, hsome⟩
    · rw [hctx] at hsize
      cases hsize
    · rw [hsize] at hsize'
      cases hsize'
      rw [hfast hsome, Pass.fixedLocalSize_eq_ok hfixed]
  · -- the bounds read from the context are the local size, which fits its field
    intro _ d hd
    change d < c.maxWorkItemDims at hd
    have hd3 : d < ContextField.localSize.len := by
      have := (c.widths_of_validate hc).2.2.2
      simp only [ContextField.len]
      omega
    have hread := hreads .localSize d hd3
    have hget : v.get .localSize d = v.localSize.getD d 0 := rfl
    rw [hget, Nat.mod_eq_of_lt (hfits d hd3)] at hread
    rw [hptr]
    exact hread

/-- A call of the inner launcher of an installed set whose body runs per work-item, on a device that
runs one invocation per work-item, calls the body once, with the launcher's arguments, its context
and the invocation's local id, when the local-id intrinsic has no body and the dimensions past the
device's have id zero. -/
theorem call_inner_hardware (hc : c.validate = none) (hspmd : c.spmd = true) {fuel : Nat}
    {vs : List Value} {ctx : Pointer} {u u' : Machine} {r : Option Value}
    (hinst : S.Installed c u.module.functions kernel) (hnd : (u.module.functions.map (·.name)).Nodup)
    (hitem : S.workgroupBody = false)
    (hdecl : ∀ fi, u.module.get? localIdIntrinsic = some fi → fi.body = none)
    (hzero : ∀ d < 3, c.maxWorkItemDims ≤ d → u.localId.getD d 0 = 0)
    (h : (call fuel S.inner (vs ++ [.ptr ctx])).run u = .ok r u') :
    CallsAlong S.entryBody (fun a _ p => a = vs ++ [.ptr ctx, .int p.x, .int p.y, .int p.z])
      [u.localId] u u' := by
  obtain ⟨kind, bounds, f, log, -, hf, -, hgen, -, b, hb⟩ := hinst.inner hnd
  have hgen' : (S.gen c kernel).generate ⟨kind, .direct, .forward, .hardware S.entryBody⟩ = .ok (f, log) := by
    simpa [Iteration.perGroup, hitem, hspmd] using hgen
  -- the intrinsic's name is generated for no kernel, the body's is
  have hne : localIdIntrinsic ≠ S.entryBody := fun heq => by
    apply not_generatedFor_localIdIntrinsic kernel.name
    rw [heq, hb]
    exact BodyFlavor.generatedFor_symbol b kernel.name
  exact LauncherGen.call_hardware (c.widths_of_validate hc).2.2.2 hf hgen' (hinst.names_apart hnd).1 hne
    hdecl hzero h

end LauncherSet

namespace Pass

open LauncherSet

variable {c : DeviceConfig} {m m' : Module} {p' : Pass} {report : PassReport} {log : Log}

/-- Every launcher set a run of the pass for a device reports is installed in the module the run
makes, whose names are pairwise different. -/
theorem installed_of_runOnModule (hnd : (m.functions.map (·.name)).Nodup)
    (hrun : (Pass.create c).runOnModule m = .ok (p', m', report, log)) {S : LauncherSet}
    (hS : S ∈ report.launchers) :
    (∃ kernel, m.get? S.kernel = some kernel ∧ S.Installed c m'.functions kernel) ∧
      (m'.functions.map (·.name)).Nodup :=
  ⟨runOnModule_installs rfl hrun S hS, nodup_runOnModule hnd hrun⟩

/-- A launch after a run of the pass, checked by evaluation: when the run succeeds and, for some set
it reports that `pick` accepts, the launch from the machine `start` makes of the module succeeds
and passes `ok`, then so it is. -/
theorem exists_launch_of_check (c : DeviceConfig) (m : Module) (pick : LauncherSet → Bool)
    (launch : LauncherSet → Exec Unit) (start : Module → Machine) (ok : LauncherSet → Machine → Bool)
    (h : (match (Pass.create c).runOnModule m with
      | .ok (_, m', report, _) => report.launchers.any fun S => pick S &&
          match (launch S).run (start m') with
          | .ok () t => ok S t
          | .error _ _ => false
      | .error _ => false) = true) :
    ∃ p' m' report log, (Pass.create c).runOnModule m = .ok (p', m', report, log) ∧
      ∃ S ∈ report.launchers, pick S = true ∧ ∃ t, (launch S).run (start m') = .ok () t ∧ ok S t = true := by
  revert h
  rcases (Pass.create c).runOnModule m with _ | ⟨p', m', report, log⟩
  · simp
  · intro h
    simp only [List.any_eq_true, Bool.and_eq_true] at h
    obtain ⟨S, hS, hpick, hrun⟩ := h
    split at hrun
    · rename_i t ht
      exact ⟨p', m', report, log, rfl, S, hS, hpick, t, ht, hrun⟩
    · cases hrun

/-- A kernel that runs per work-item. -/
def itemKernel : Module :=
  { name := "m", functions := [{ name := "k", body := some [.ret], attrs := { kernel := true } }] }

/-- A per-work-item kernel beside a module function that defines the local-id intrinsic with a
body of its own. -/
def definedLocalId : Module :=
  { name := "m", functions := [
      { name := localIdIntrinsic, params := [{ name := "dim", ty := .i32 }], body := some [.ret] },
      { name := "k", body := some [.ret], attrs := { kernel := true } }] }

/-- A kernel that waits at a work-group barrier. -/
def barrierKernel : Module :=
  { name := "m", functions := [{ name := "k", body := some [.barrier, .ret], attrs := { kernel := true } }] }

end Pass

end KernelLaunch
