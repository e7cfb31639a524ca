import KernelLaunch.Proofs.Pass.Clones
/-!
# A skipped kernel stays skipped

A run of the pass appends functions to a module and never removes one. This module shows that
every reason to skip a kernel survives such an extension: `processKernel_skip_persists` says that a
kernel skipped against a module is skipped again, if the pass does not fault, against any module
that begins with the same functions, by a pass on the same device with the same layout recorded for
the kernel and no output clone noted yet.

Each check is monotone in the functions of the module. Functions are found by name as before
(`Module.get?_mono`), and a kernel reaches at least what it reached (`reachableFrom_build_mono`),
so a helper that read a handle is still reached (`checkHelpers_anti`) and a body that
synchronized still does (`hasWorkgroupBarriers_mono`). A body refused for its shape is refused
for a shape that synchronizes more (`deriveBody_ok_of_le`). A name taken stays taken, and it is made
again: the bodies and launchers of a kernel have the same names whatever the body's shape
(`map_kind_variants`), and a helper that needed a clone still needs one (`NeedsClone.mono`).
-/

namespace KernelLaunch

open CallGraph

namespace Module

variable {m m' : Module}

/-- A module whose functions begin with those of `m` finds what `m` finds by name. -/
theorem get?_mono (h : m.functions <+: m'.functions) {x : String} {f : Function}
    (hx : m.get? x = some f) : m'.get? x = some f := by
  obtain ⟨fs, hfs⟩ := h
  unfold get? at hx ⊢
  rw [← hfs, List.find?_append, hx]
  rfl

theorem contains_mono (h : m.functions <+: m'.functions) {x : String} (hx : m.contains x) :
    m'.contains x := by
  obtain ⟨f, hf⟩ := Option.isSome_iff_exists.mp hx
  unfold contains
  rw [get?_mono h hf]
  rfl

end Module

theorem forM_except_eq_ok {ε α : Type} {f : α → Except ε Unit} :
    ∀ {l : List α}, l.forM f = .ok () ↔ ∀ x ∈ l, f x = .ok ()
  | [] => by simp [pure, Except.pure]
  | x :: l => by
      simp only [List.forM]
      cases hx : f x with
      | error e => simp [hx, bind, Except.bind]
      | ok u =>
          simp only [hx, bind, Except.bind, List.mem_cons, forall_eq_or_imp, true_and]
          exact forM_except_eq_ok

namespace Function

variable {m m' : Module} {f : Function}

/-- A function that reaches an instruction still does when functions are appended. -/
theorem reachesInst_mono (h : m.functions <+: m'.functions) {p : Inst → Bool}
    (hr : f.reachesInst m (build m) p = true) : f.reachesInst m' (build m') p = true := by
  unfold reachesInst at hr ⊢
  obtain ⟨n, hn, hp⟩ := List.any_eq_true.mp hr
  refine List.any_eq_true.mpr ⟨n, reachableFrom_build_mono h.subset hn, ?_⟩
  cases hget : m.get? n with
  | none => simp [hget] at hp
  | some hf =>
      rw [hget] at hp
      rw [Module.get?_mono h hget]
      exact hp

theorem hasWorkgroupBarriers_mono (h : m.functions <+: m'.functions)
    (hb : f.hasWorkgroupBarriers m (build m) = true) : f.hasWorkgroupBarriers m' (build m') = true := by
  unfold hasWorkgroupBarriers at hb ⊢
  rcases Bool.or_eq_true_iff.mp hb with hb | hb
  · simp [hb]
  · simp [reachesInst_mono h hb]

theorem performsOutput_mono (h : m.functions <+: m'.functions)
    (hp : f.performsOutput m (build m) = true) : f.performsOutput m' (build m') = true :=
  reachesInst_mono h hp

end Function

namespace Pass

variable {m m' : Module}

/-- Helpers that pass the check in a module with more functions pass it in the module with fewer:
they reach no more helpers, and the helpers they reach are the same functions. -/
theorem checkHelpers_anti (h : m.functions <+: m'.functions) {k : Function}
    (hc : checkHelpers k m' (build m') = .ok ()) : checkHelpers k m (build m) = .ok () := by
  unfold checkHelpers at hc ⊢
  rw [forM_except_eq_ok] at hc ⊢
  intro x hx
  have hcx := hc x (reachableFrom_build_mono h.subset hx)
  by_cases hself : (x == k.name) = true
  · simp [hself]
  · cases hget : m.get? x with
    | none => simp [hself]
    | some helper =>
        simpa [hself, hget, Module.get?_mono h hget] using hcx

/-- A computed layout is recorded under its kernel's name. -/
theorem kernel_compute {f : Function} {c : DeviceConfig} {l : ArgBufferLayout}
    (h : ArgBufferLayout.compute f c = .ok (.ok l)) : l.kernel = f.name := by
  unfold ArgBufferLayout.compute at h
  rcases hp : ArgBufferLayout.place f c f.params 0 0 1 with fault | d | ⟨slots, stop, al⟩
  · simp [hp, Except.map] at h
  · simp [hp, Except.map] at h
  · cases hs : Word.checkedAlignTo stop al <;> simp [hp, hs, Except.map] at h
    subst h
    rfl

/-- Which layout a kernel gets depends on the device and on what is recorded for that kernel
alone. -/
theorem layoutFor_congr {p p' : Pass} {name : String} {kernel : Function} (hcfg : p'.cfg = p.cfg)
    (hlay : p'.layouts.get? kernel.name = p.layouts.get? kernel.name) :
    p'.layoutFor name kernel = p.layoutFor name kernel := by
  unfold layoutFor
  rw [hcfg]
  split
  · rcases hl : ArgBufferLayout.compute kernel p.cfg with fault | d | l
    · rfl
    · rfl
    · simp only [Except.map]
      unfold LayoutCache.check
      rw [kernel_compute hl, hlay]
  · rfl

end Pass

namespace LauncherGen

/-- The kinds of a kernel's launchers do not depend on the body's shape nor on the kernel: only on
the fixed size, the layout and whether the device has grid launchers. -/
theorem map_kind_variants {gen gen' : LauncherGen} (hgrid : gen'.cfg.gridLauncher = gen.cfg.gridLauncher)
    (name : String) (shaped shaped' : Bool) (fastSize : Option Dims3) (layout : Option ArgBufferLayout) :
    (gen'.variants name shaped' fastSize layout).map (·.kind) = (gen.variants name shaped fastSize layout).map (·.kind) := by
  cases fastSize <;> cases layout <;> simp [variants, hgrid]

end LauncherGen

/-- A body whose derivation passes every check for a shape passes them for a shape that synchronizes
less: only a work-group body is refused for reading local ids. -/
theorem deriveBody_ok_of_le {kernel body : Function} {c : DeviceConfig} {l : ContextLayout}
    {flavor : BodyFlavor} {shaped shaped' : Bool} {notes : Log} (hle : shaped = true → shaped' = true)
    (h : deriveBody kernel c l flavor shaped' = .ok (.ok (body, notes))) :
    ∃ body' notes', deriveBody kernel c l flavor shaped = .ok (.ok (body', notes')) := by
  unfold deriveBody at h ⊢
  simp only [bind, Except.bind, pure, Except.pure] at h ⊢
  split at h
  · cases h
  split at h
  · cases h
  rename_i hloc
  have hloc' : ¬ (shaped && kernel.handleRefs.any fun x => x.kind == Handle.localId) = true := by
    intro h'
    simp only [Bool.and_eq_true] at h' hloc
    exact hloc ⟨hle h'.1, h'.2⟩
  rw [if_neg hloc']
  -- the register count and the context loads do not depend on the shape
  split at h
  · cases h
  split at h
  · cases h
  exact ⟨_, _, rfl⟩

namespace Pass

variable {p : Pass} {g : CallGraph} {name : String} {kernel : Function} {sg : Option Nat} {shaped : Bool}

/-- Bodies derived for some flavors passed the checks of each flavor. -/
theorem deriveBody_of_deriveBodies :
    ∀ (flavors : List BodyFlavor) {log log' : Log} {outputs outputs' : OutputClones}
      {functions functions' : List Function},
      p.deriveBodies m g name kernel sg shaped flavors log outputs functions =
        .ok (log', .ok (outputs', functions')) →
      ∀ flavor ∈ flavors, ∃ body notes, deriveBody kernel p.cfg p.context flavor shaped = .ok (.ok (body, notes))
  | [], _, _, _, _, _, _, _ => by simp
  | flavor :: flavors, log, log', outputs, outputs', functions, functions', h => by
      simp only [deriveBodies, bind, Except.bind] at h
      split at h
      · cases h
      split at h
      · simp [pure, Except.pure] at h
      rename_i body notes hderive
      intro flavor' hflavor'
      rcases List.mem_cons.mp hflavor' with rfl | hflavor'
      · exact ⟨body, notes, hderive⟩
      split at h
      · split at h
        · cases h
        exact deriveBody_of_deriveBodies flavors h flavor' hflavor'
      · exact deriveBody_of_deriveBodies flavors h flavor' hflavor'

/-- Deriving bodies reports no diagnostic when each flavor passes its checks. -/
theorem deriveBodies_ne_skip :
    ∀ (flavors : List BodyFlavor) {log log' : Log} {outputs : OutputClones} {functions : List Function}
      {d : Diagnostic},
      (∀ flavor ∈ flavors, ∃ body notes, deriveBody kernel p.cfg p.context flavor shaped = .ok (.ok (body, notes))) →
      p.deriveBodies m g name kernel sg shaped flavors log outputs functions ≠ .ok (log', .error d)
  | [], _, _, _, _, _, _ => by simp [deriveBodies, pure, Except.pure]
  | flavor :: flavors, log, log', outputs, functions, d, hall => by
      obtain ⟨body, notes, hderive⟩ := hall flavor List.mem_cons_self
      have hrest := fun flavor' hflavor' => hall flavor' (List.mem_cons_of_mem flavor hflavor')
      intro h
      simp only [deriveBodies, bind, Except.bind, hderive] at h
      split at h
      · split at h
        · cases h
        exact deriveBodies_ne_skip flavors hrest h
      · exact deriveBodies_ne_skip flavors hrest h

end Pass

namespace OutputClones

/-- A helper that needs a clone still needs one when functions are appended, as long as the name of
its clone was already taken by a function not derived from it. -/
theorem NeedsClone.mono {m₁ m₂ : Module} {root x : String} (hpre : m₁.functions <+: m₂.functions)
    (h : NeedsClone m₁ (build m₁) root x) (htaken : m₁.contains (cloneName x)) :
    NeedsClone m₂ (build m₂) root x := by
  obtain ⟨⟨k, hk, hprints⟩, hreach, hne, hprint, hnot, helper, hhelper, hdecl⟩ := h
  refine ⟨⟨k, Module.get?_mono hpre hk, Function.performsOutput_mono hpre hprints⟩,
    reachableFrom_build_mono hpre.subset hreach, hne, reaching_build_mono hpre.subset hprint, ?_,
    helper, Module.get?_mono hpre hhelper, hdecl⟩
  -- the clone's name finds the same function as before, which is not derived from the helper
  rintro ⟨f, hf, hder⟩
  obtain ⟨f₁, hf₁⟩ := Option.isSome_iff_exists.mp htaken
  rw [Module.get?_mono hpre hf₁] at hf
  obtain rfl := Option.some.inj hf
  exact hnot ⟨f₁, hf₁, hder⟩

end OutputClones

namespace Pass

variable {p₁ p₂ : Pass} {m₁ m₂ : Module} {name : String}

/-- A kernel that was skipped against a module is skipped again, when the pass does not fault,
against that module with functions appended, by a pass on the same device with the same layout
recorded for the kernel and no output clone noted: every check it failed still fails, and every
name it found taken is still taken. -/
theorem processKernel_skip_persists {log₁ log₂ : Log} {s : KernelSkip} {e : Emission}
    (hskip : p₁.processKernel m₁ (build m₁) name = .ok (log₁, .error s))
    (hcfg : p₂.cfg = p₁.cfg) (hctx : p₂.context = p₁.context)
    (hlay : p₂.layouts.get? name = p₁.layouts.get? name) (hnamed : p₁.outputs.Named) (hout : p₂.outputs = {})
    (hpre : m₁.functions <+: m₂.functions) (hfound : (m₁.get? name).isSome) :
    p₂.processKernel m₂ (build m₂) name ≠ .ok (log₂, .ok e) := by
  intro hcommit
  obtain ⟨kernel, sg, fastSize, layout, bodyLog, bodies, launchers, notes, hk, hc, hs, hh, hf, hl, hd, he, hx, -⟩ :=
    processKernel_eq_ok hcommit
  -- the kernel is the one found before, and it passes every check again
  have hk₁ : m₁.get? name = some kernel := by
    obtain ⟨k₁, hk₁⟩ := Option.isSome_iff_exists.mp hfound
    rw [hk₁, ← hk, Module.get?_mono hpre hk₁]
  have hkname : kernel.name = name := (Module.get?_eq_some hk).1
  have hh₁ := checkHelpers_anti hpre hh
  have hl₁ : p₁.layoutFor name kernel = .ok (.ok layout) := by
    rw [← layoutFor_congr hcfg (hkname ▸ hlay)]
    exact hl
  have hbodies : ∀ flavor ∈ BodyFlavor.dynamic :: (fastSize.map BodyFlavor.fixed).toList, ∃ body notes,
      deriveBody kernel p₁.cfg p₁.context flavor (kernel.hasWorkgroupBarriers m₁ (build m₁)) =
        .ok (.ok (body, notes)) := by
    intro flavor hflavor
    obtain ⟨body, notes, hbody⟩ := deriveBody_of_deriveBodies _ hd flavor hflavor
    rw [hcfg, hctx] at hbody
    exact deriveBody_ok_of_le (Function.hasWorkgroupBarriers_mono hpre) hbody
  rw [hcfg] at hc hs hf
  unfold processKernel at hskip
  simp only [hk₁, hc, hs, hh₁, hf, hl₁, bind, Except.bind, pure, Except.pure] at hskip
  rcases hd₁ : p₁.deriveBodies m₁ (build m₁) name kernel sg (kernel.hasWorkgroupBarriers m₁ (build m₁))
      (BodyFlavor.dynamic :: (fastSize.map BodyFlavor.fixed).toList) #[] p₁.outputs [] with
    f | ⟨bodyLog₁, d | ⟨outputs₁, bodies₁⟩⟩
  · simp [hd₁] at hskip
  · exact deriveBodies_ne_skip _ hbodies hd₁
  rcases he₁ : ({ cfg := p₁.cfg, context := p₁.context, kernel, subgroupSize := sg } : LauncherGen).emitLaunchers
      name (kernel.hasWorkgroupBarriers m₁ (build m₁)) fastSize layout with f | ⟨launchers₁, notes₁, set₁⟩
  · simp [hd₁, he₁] at hskip
  rcases hx₁ : collision m₁ (bodies₁ ++ launchers₁) with _ | taken
  · simp [hd₁, he₁, hx₁] at hskip
  -- the name found taken is taken in the larger module, by a function made again
  obtain ⟨htaken, hcoll⟩ : taken ∈ bodies₁ ++ launchers₁ ∧ m₁.contains taken.name := by
    unfold collision at hx₁
    exact ⟨List.mem_of_find?_eq_some hx₁, by simpa using List.find?_some hx₁⟩
  suffices hagain : ∃ f ∈ bodies ++ launchers, f.name = taken.name by
    obtain ⟨f, hf, hname⟩ := hagain
    refine collision_eq_none.mp hx f hf ?_
    rw [hname, ← Module.contains_iff]
    exact Module.contains_mono hpre hcoll
  rcases List.mem_append.mp htaken with htaken | htaken
  · -- a body is made again under its flavor's name, and a clone because its helper still needs one
    rcases mem_deriveBodies _ hnamed hd₁ taken htaken with hnil | ⟨b, hb, hname, -⟩ | ⟨hprintf, x, hname, -, hneed⟩
    · exact absurd hnil List.not_mem_nil
    · obtain ⟨-, -, fs, hfs, -, hall, -⟩ := deriveBodies_eq_ok _ (hout ▸ OutputClones.Named.empty) hd
      obtain ⟨f, hf, hfn⟩ := hall b hb
      rw [List.nil_append] at hfs
      exact ⟨f, List.mem_append_left _ (hfs ▸ hf), hfn.trans hname.symm⟩
    · have hneed₂ := hneed.mono hpre (hname ▸ hcoll)
      obtain ⟨f, hf, hfn⟩ := clone_mem_deriveBodies (hcfg ▸ hprintf) hneed₂ (by rw [hout]; rfl)
        (hout ▸ OutputClones.Named.empty) hd
      exact ⟨f, List.mem_append_left _ hf, hfn.trans hname.symm⟩
  · -- a launcher is made again: the kinds of launchers do not depend on the body's shape
    have hkinds := @LauncherGen.map_kind_variants
      { cfg := p₁.cfg, context := p₁.context, kernel, subgroupSize := sg }
      { cfg := p₂.cfg, context := p₂.context, kernel, subgroupSize := sg } (by rw [hcfg]) name (kernel.hasWorkgroupBarriers m₁ (build m₁)) (kernel.hasWorkgroupBarriers m₂ (build m₂))
      fastSize layout
    have hsame : launchers.map (·.name) = launchers₁.map (·.name) := by
      rw [LauncherGen.map_name_emitLaunchers he, LauncherGen.map_name_emitLaunchers he₁]
      simpa [List.map_map, Function.comp_def] using congrArg (List.map (LauncherKind.symbol · kernel.name)) hkinds
    have hmem : taken.name ∈ launchers.map (·.name) := hsame ▸ List.mem_map_of_mem htaken
    obtain ⟨f, hf, hfn⟩ := List.mem_map.mp hmem
    exact ⟨f, List.mem_append_right _ hf, hfn⟩

end Pass

end KernelLaunch
