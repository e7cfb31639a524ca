import KernelLaunch.Proofs.Layout.Cache
/-!
# The layout cache across runs

A pass checks every layout it computes against its cache and, when it commits the kernel, records
it. Started from a cache of computed layouts (`LayoutCache.Computed`), with a digest that does not
collide on the byte strings fingerprinted along the way, the pass never skips a kernel because its
layout disagrees with the recorded one: every kernel a run reports as unsatisfiable was skipped for
the subgroup size it requires (`SubgroupSkip`), and the cache stays one of computed layouts, over
any number of runs over any modules (`runEach_layouts`).

Main statement: `recorded_layouts_agree`, which gathers the laws of the cache, what a
fingerprint's byte string determines, and the runs of the pass.
-/

namespace KernelLaunch

namespace Pass

variable {p : Pass} {m : Module} {g : CallGraph} {name : String}

/-! ## Where a kernel is skipped as unsatisfiable -/

/-- A layout is skipped as unsatisfiable only when checking it against the cache fails. -/
theorem layoutFor_unsatisfiable {kernel : Function} {s : KernelSkip} (h : p.layoutFor name kernel = .ok (.error s))
    (hs : s.reason = .unsatisfiableRequirement) :
    ∃ l, ArgBufferLayout.compute kernel p.cfg = .ok (.ok l) ∧ p.layouts.check l = .error s.diagnostic := by
  unfold layoutFor at h
  split at h
  · rcases hl : ArgBufferLayout.compute kernel p.cfg with fault | d | l
    · simp [hl, Except.map] at h
    · simp only [hl, Except.map, Except.ok.injEq, Except.error.injEq] at h
      rw [← h] at hs
      cases hs
    · simp only [hl, Except.map] at h
      split at h
      · rename_i d hd
        simp only [Except.ok.injEq, Except.error.injEq] at h
        exact ⟨l, rfl, by rw [hd, ← h]⟩
      · cases h
  · cases h

/-- A kernel is skipped as unsatisfiable either for the subgroup size it requires or for its
layout. -/
theorem processKernel_unsatisfiable {log : Log} {s : KernelSkip} (h : p.processKernel m g name = .ok (log, .error s))
    (hs : s.reason = .unsatisfiableRequirement) :
    ∃ kernel, m.get? name = some kernel ∧
      (requiredSubgroupSize kernel p.cfg = .error s.diagnostic ∨ p.layoutFor name kernel = .ok (.error s)) := by
  unfold processKernel at h
  -- every other way out reports the kernel malformed, or commits it
  rcases hk : m.get? name with _ | kernel
  · simp only [hk, pure, Except.pure, Except.ok.injEq, Prod.mk.injEq, Except.error.injEq] at h
    rw [← h.2] at hs
    cases hs
  refine ⟨kernel, rfl, ?_⟩
  rcases hc : checkParams p.cfg kernel with d | ⟨⟩
  · simp only [hk, hc, pure, Except.pure, Except.ok.injEq, Prod.mk.injEq, Except.error.injEq] at h
    rw [← h.2] at hs
    cases hs
  rcases hsg : requiredSubgroupSize kernel p.cfg with d | sg
  · simp only [hk, hc, hsg, pure, Except.pure, Except.ok.injEq, Prod.mk.injEq, Except.error.injEq] at h
    exact .inl (by rw [← h.2])
  rcases hh : checkHelpers kernel m g with d | ⟨⟩
  · simp [hk, hc, hsg, hh, pure, Except.pure, bind, Except.bind] at h
    rw [← h.2] at hs
    cases hs
  rcases hf : fastSizeOf kernel p.cfg with d | fastSize
  · simp [hk, hc, hsg, hh, hf, pure, Except.pure, bind, Except.bind] at h
    rw [← h.2] at hs
    cases hs
  rcases hl : p.layoutFor name kernel with fault | sk | layout
  · simp [hk, hc, hsg, hh, hf, hl, pure, Except.pure, bind, Except.bind] at h
  · simp [hk, hc, hsg, hh, hf, hl, pure, Except.pure, bind, Except.bind] at h
    exact .inr (by rw [h.2])
  simp only [hk, hc, hsg, hh, hf, hl, pure, Except.pure, bind, Except.bind] at h
  rcases hd : p.deriveBodies m g name kernel sg (kernel.hasWorkgroupBarriers m g)
      (BodyFlavor.dynamic :: (fastSize.map BodyFlavor.fixed).toList) #[] p.outputs [] with
    f | ⟨bodyLog, d | ⟨outputs, bodies⟩⟩
  · simp [hd] at h
  · simp [hd] at h
    rw [← h.2] at hs
    cases hs
  rcases he : ({ cfg := p.cfg, context := p.context, kernel, subgroupSize := sg } : LauncherGen).emitLaunchers
      name (kernel.hasWorkgroupBarriers m g) fastSize layout with f | ⟨launchers, notes, set⟩
  · simp [hd, he] at h
  rcases hx : collision m (bodies ++ launchers) with _ | taken
  · simp [hd, he, hx] at h
  · simp [hd, he, hx] at h
    rw [← h.2] at hs
    cases hs

/-- A committed kernel's layout, if any, is the one computed for the kernel the module names. -/
theorem processKernel_layout {log : Log} {e : Emission} (h : p.processKernel m g name = .ok (log, .ok e)) :
    ∃ kernel, m.get? name = some kernel ∧ ∀ l, e.set.layout = some l → ArgBufferLayout.compute kernel p.cfg = .ok (.ok l) := by
  obtain ⟨kernel, sg, fastSize, layout, bodyLog, bodies, launchers, notes, hk, -, -, -, -, hl, -, he, -, -⟩ :=
    processKernel_eq_ok h
  refine ⟨kernel, hk, fun l hsl => ?_⟩
  rw [(LauncherGen.emitLaunchers_eq_ok he).2] at hsl
  exact (layoutFor_eq_ok hl).2 l hsl

/-- Committing records the emission's layout when there is one and the cache takes it, and
otherwise keeps the cache. -/
theorem layouts_commit (p : Pass) (m : Module) (e : Emission) :
    (p.commit m e).1.layouts = p.layouts ∨
      ∃ l log, e.set.layout = some l ∧ p.layouts.record l = .ok ((p.commit m e).1.layouts, log) := by
  unfold commit
  rcases hl : e.set.layout with _ | l
  · exact .inl rfl
  rcases hr : p.layouts.record l with d | ⟨C', log⟩
  · exact .inl (by simp [hr])
  · exact .inr ⟨l, log, rfl, by simp [hr]⟩

/-! ## What a run keeps -/

/-- A skipped kernel that a report calls unsatisfiable was skipped for the subgroup size it requires
on the device, read off the module `m`, and not for its layout. -/
def SubgroupSkip (m : Module) (c : DeviceConfig) (s : KernelSkip) : Prop :=
  s.reason = .unsatisfiableRequirement →
    ∃ kernel, m.get? s.kernel = some kernel ∧ requiredSubgroupSize kernel c = .error s.diagnostic

/-- What the visits of a run over `m₀` keep, from a cache of layouts computed from byte strings of
`S`: the device, a cache of computed layouts, the module's functions at the front, and the
kernels skipped as unsatisfiable skipped for their subgroup size. -/
structure LayoutsKept (S : Set ByteArray) (m₀ : Module) (c : DeviceConfig)
    (st : Pass × Module × PassReport × Log) : Prop where
  cfg : st.1.cfg = c
  computed : st.1.layouts.Computed S
  prefix_functions : m₀.functions <+: st.2.1.functions
  skipped : ∀ s ∈ st.2.2.1.skipped, SubgroupSkip m₀ c s

section Kept

variable {S : Set ByteArray} {m₀ : Module} {c : DeviceConfig}

/-- A kernel named in `m₀` is, in every module that extends it, the function `m₀` names. -/
theorem get?_of_mem_names (hfront : m₀.functions <+: m.functions) (hname : name ∈ m₀.functions.map (·.name)) :
    ∃ kernel ∈ m₀.functions, m₀.get? name = some kernel ∧ m.get? name = some kernel := by
  obtain ⟨f, hf, rfl⟩ := List.mem_map.mp hname
  have hsome : (m₀.get? f.name).isSome := by
    unfold Module.get?
    exact List.find?_isSome.mpr ⟨f, hf, by simp⟩
  obtain ⟨kernel, hk⟩ := Option.isSome_iff_exists.mp hsome
  exact ⟨kernel, (Module.get?_eq_some hk).2, hk, Module.get?_mono hfront hk⟩

/-- One visit keeps what a run keeps, when the digest does not collide on `S` and `S` holds the
byte string of every function of `m₀` on the device. -/
theorem LayoutsKept.visit (hinj : Set.InjOn Blake3.hexDigest S) (hc : c.WordsFit)
    (hS : ∀ f ∈ m₀.functions, ArgBufferLayout.fingerprintInput f c ∈ S) (hname : name ∈ m₀.functions.map (·.name))
    {st st' : Pass × Module × PassReport × Log} (hkept : LayoutsKept S m₀ c st) (h : visitKernel st name = .ok st') :
    LayoutsKept S m₀ c st' := by
  obtain ⟨p, m, report, log⟩ := st
  obtain ⟨p', m', report', log'⟩ := st'
  obtain ⟨hcfg, hC, hfront, hskipped⟩ := hkept
  dsimp only at hcfg hC hfront hskipped
  subst hcfg
  obtain ⟨kernel, hmem, hk₀, hk⟩ := get?_of_mem_names hfront hname
  rcases visitKernel_eq_ok h with ⟨notes, e, hpk, rfl, rfl, rfl⟩ | ⟨notes, s, hpk, rfl, rfl, rfl⟩
  · -- the kernel is committed, and its layout, if any, recorded
    obtain ⟨decl, -, hmod, -, hcfg', -⟩ := commit_eq p m e
    obtain ⟨kernel', hk', hlayout⟩ := processKernel_layout hpk
    obtain rfl : kernel = kernel' := Option.some.inj (hk.symm.trans hk')
    refine ⟨hcfg', ?_, ?_, hskipped⟩
    · rcases layouts_commit p m e with hsame | ⟨l, log, hl, hr⟩
      · rw [hsame]
        exact hC
      · exact hC.record hc (hS kernel hmem) (hlayout l hl) hr
    · rw [hmod]
      exact hfront.trans ⟨decl ++ e.functions, by simp⟩
  · -- the kernel is skipped: never for a layout, as the cache agrees with every computed one
    refine ⟨rfl, hC, hfront, fun s' hs' => ?_⟩
    rcases List.mem_append.mp hs' with hs' | hs'
    · exact hskipped s' hs'
    obtain rfl := List.mem_singleton.mp hs'
    intro hreason
    have hsk : s'.kernel = name := kernel_of_processKernel_skip hpk
    obtain ⟨kernel', hk', hwhy⟩ := processKernel_unsatisfiable hpk hreason
    obtain rfl : kernel = kernel' := Option.some.inj (hk.symm.trans hk')
    rcases hwhy with hsg | hl
    · exact ⟨kernel, hsk ▸ hk₀, hsg⟩
    · obtain ⟨l, hcomp, hcheck⟩ := layoutFor_unsatisfiable hl hreason
      rw [LayoutCache.check_of_computed hC hinj hc (hS kernel hmem) hcomp] at hcheck
      cases hcheck

end Kept

/-- A run from a cache of computed layouts keeps the device and a cache of computed layouts, and
every kernel it skips as unsatisfiable is skipped for the subgroup size it requires. -/
theorem runOnModule_layouts {S : Set ByteArray} {p' : Pass} {m' : Module} {report : PassReport} {log : Log}
    (hinj : Set.InjOn Blake3.hexDigest S) (hC : p.layouts.Computed S) (hc : p.cfg.WordsFit)
    (hS : ∀ f ∈ m.functions, ArgBufferLayout.fingerprintInput f p.cfg ∈ S) (h : p.runOnModule m = .ok (p', m', report, log)) :
    p'.cfg = p.cfg ∧ p'.layouts.Computed S ∧ ∀ s ∈ report.skipped, SubgroupSkip m p.cfg s := by
  obtain ⟨log₀, m₁, log₁, hfold, -⟩ := runOnModule_eq_ok h
  -- the visits run over names of the module's functions
  have hnames : ∀ x ∈ (m.functions.filter (·.isKernelToProcess m)).map (·.name), x ∈ m.functions.map Function.name :=
    fun x hx => (List.filter_sublist.map _).subset hx
  have hkept := foldlM_visitKernel
    (I := fun rest st => (∀ x ∈ rest, x ∈ m.functions.map Function.name) ∧ LayoutsKept S m p.cfg st)
    (fun name rest st st' ⟨hrest, hkept⟩ hvisit =>
      ⟨fun x hx => hrest x (List.mem_cons_of_mem _ hx),
        hkept.visit hinj hc hS (hrest name List.mem_cons_self) hvisit⟩)
    _ ⟨hnames, ⟨rfl, hC, List.prefix_refl _, fun _ h => absurd h List.not_mem_nil⟩⟩ hfold
  obtain ⟨hcfg, hC', -, hskipped⟩ := hkept.2
  exact ⟨hcfg, hC', hskipped⟩

/-- Runs of one pass over modules one after another, each from the pass the one before answered;
answers the last pass and the reports, in order. -/
def runEach (p : Pass) : List Module → Except Fault (Pass × List PassReport)
  | [] => pure (p, [])
  | m :: ms => do
      let (p, _, report, _) ← p.runOnModule m
      let (p, reports) ← p.runEach ms
      pure (p, report :: reports)

/-- Over any number of runs over any modules, from a cache of computed layouts and with a digest
that does not collide on the byte strings of the cache and of the modules' functions, the cache
stays one of computed layouts, and every kernel a run skips as unsatisfiable is skipped for the
subgroup size it requires, never for a layout that disagrees with a recorded one. -/
theorem runEach_layouts {S : Set ByteArray} (hinj : Set.InjOn Blake3.hexDigest S) :
    ∀ {p p' : Pass} {ms : List Module} {reports : List PassReport}, p.layouts.Computed S → p.cfg.WordsFit →
      (∀ m ∈ ms, ∀ f ∈ m.functions, ArgBufferLayout.fingerprintInput f p.cfg ∈ S) → p.runEach ms = .ok (p', reports) →
      p'.cfg = p.cfg ∧ p'.layouts.Computed S ∧
        List.Forall₂ (fun m report => ∀ s ∈ report.skipped, SubgroupSkip m p.cfg s) ms reports
  | p, p', [], reports, _, _, _, h => by
      simp only [runEach, except_pure_eq_ok, Prod.mk.injEq] at h
      obtain ⟨rfl, rfl⟩ := h
      exact ⟨rfl, ‹_›, .nil⟩
  | p, p', m :: ms, reports, hC, hc, hS, h => by
      simp only [runEach] at h
      obtain ⟨⟨p₁, m₁, report, log⟩, hrun, h⟩ := except_bind_eq_ok.mp h
      obtain ⟨⟨p₂, reports'⟩, hrest, h⟩ := except_bind_eq_ok.mp h
      simp only [except_pure_eq_ok, Prod.mk.injEq] at h
      obtain ⟨rfl, rfl⟩ := h
      obtain ⟨hcfg, hC₁, hskipped⟩ := runOnModule_layouts hinj hC hc (hS m List.mem_cons_self) hrun
      -- the next runs start from the same device and a cache of computed layouts
      obtain ⟨hcfg', hC₂, hreports⟩ := runEach_layouts hinj hC₁ (hcfg ▸ hc)
        (fun m' hm' => hcfg ▸ hS m' (List.mem_cons_of_mem _ hm')) hrest
      rw [hcfg] at hcfg' hreports
      exact ⟨hcfg', hC₂, .cons hskipped hreports⟩

/-! ## The recorded layouts agree with the computed ones -/

open ArgBufferLayout in
/-- The layouts a pass records agree with every layout it computes later. Along any checks and
records every entry of the cache stays stored under its own layout's kernel name; recording fails
exactly when checking fails, and otherwise the cache answers the recorded layout for its kernel;
checking fails exactly when the entry of the layout's kernel has its fingerprint but differs from
it. The byte string a fingerprint digests determines, on devices whose fingerprinted words are
32-bit, every parameter's type (the text of a type is injective) and passing mode and the device
words, hence the layout computed for a kernel of a given name. So two layouts computed for one
kernel name with equal fingerprints are equal when the digest does not collide on their two byte
strings, and runs of a pass from a cache of computed layouts, over any modules, never skip a kernel
because its layout disagrees with a recorded one. -/
theorem recorded_layouts_agree :
    (∀ (C : LayoutCache) (steps : List LayoutCache.Step), C.Keyed → (steps.foldl LayoutCache.Step.apply C).Keyed) ∧
    (∀ (C : LayoutCache) (l : ArgBufferLayout) (d : Diagnostic), C.record l = .error d ↔ C.check l = .error d) ∧
    (∀ (C C' : LayoutCache) (l : ArgBufferLayout) (log : Log),
      C.record l = .ok (C', log) → C'.get? l.kernel = some l) ∧
    (∀ (C : LayoutCache) (l : ArgBufferLayout), (∃ d, C.check l = .error d) ↔
      ∃ was, C.get? l.kernel = some was ∧ was.fingerprint = l.fingerprint ∧ was ≠ l) ∧
    Function.Injective Ty.render ∧
    (∀ (f f' : Function) (c c' : DeviceConfig), c.WordsFit → c'.WordsFit →
      fingerprintInput f c = fingerprintInput f' c' →
        f.params.map Param.signature = f'.params.map Param.signature ∧
          c.fingerprintWords = c'.fingerprintWords ∧
          (f.name = f'.name → ∀ l, compute f c = .ok (.ok l) → compute f' c' = .ok (.ok l))) ∧
    (∀ (f f' : Function) (c c' : DeviceConfig) (l l' : ArgBufferLayout), c.WordsFit → c'.WordsFit →
      (Blake3.hexDigest (fingerprintInput f c) = Blake3.hexDigest (fingerprintInput f' c') →
        fingerprintInput f c = fingerprintInput f' c') →
      compute f c = .ok (.ok l) → compute f' c' = .ok (.ok l') →
      l.kernel = l'.kernel → l.fingerprint = l'.fingerprint → l = l') ∧
    (∀ (S : Set ByteArray) (p p' : Pass) (ms : List Module) (reports : List PassReport),
      Set.InjOn Blake3.hexDigest S → p.layouts.Computed S → p.cfg.WordsFit →
      (∀ m ∈ ms, ∀ f ∈ m.functions, fingerprintInput f p.cfg ∈ S) → p.runEach ms = .ok (p', reports) →
      p'.layouts.Computed S ∧
        List.Forall₂ (fun m report => ∀ s ∈ report.skipped, SubgroupSkip m p.cfg s) ms reports) :=
  ⟨fun _ steps hC => hC.run steps, fun _ _ _ => LayoutCache.record_eq_error_iff,
    fun _ _ _ _ h => (LayoutCache.get?_record h).1, fun _ _ => LayoutCache.check_eq_error_iff,
    Ty.render_injective,
    fun _ _ _ _ hc hc' hin => ⟨(fingerprintInput_inj hc hc' hin).1, (fingerprintInput_inj hc hc' hin).2,
      fun hname _ h => compute_eq_of_fingerprintInput hc hc' hname hin h⟩,
    fun _ _ _ _ _ _ hc hc' hcol h h' hkernel hfp => eq_of_fingerprint_eq hc hc' hcol h h' hkernel hfp,
    fun _ _ _ _ _ hinj hC hc hS h => (runEach_layouts hinj hC hc hS h).2⟩

/-- Two modules holding a kernel of one name and signature: the second under other parameter names
and with another body. -/
def scratchModules : List Module :=
  [{ name := "m", functions := [ArgBufferLayout.scratchKernel] },
   { name := "m2",
     functions := [{ ArgBufferLayout.scratchKernel with
       params := [{ name := "buffer", ty := .ptr 3 }, { name := "count", ty := .i32 },
         { name := "pair", ty := .struct [.i8, .i64], byValue := true }],
       body := some [.ret, .ret] }] }]

theorem except_exists_ok_of_toBool {ε α : Type} {x : Except ε α} (h : x.toBool = true) : ∃ a, x = .ok a := by
  cases x with
  | error e => cases h
  | ok a => exact ⟨a, rfl⟩

theorem recorded_layouts_agree_scratchModules :
    Set.InjOn Blake3.hexDigest {ArgBufferLayout.fingerprintInput ArgBufferLayout.scratchKernel DeviceConfig.spmdGpu} ∧
      (Pass.create DeviceConfig.spmdGpu).layouts.Computed
        {ArgBufferLayout.fingerprintInput ArgBufferLayout.scratchKernel DeviceConfig.spmdGpu} ∧
      DeviceConfig.spmdGpu.WordsFit ∧
      (∀ m ∈ scratchModules, ∀ f ∈ m.functions, ArgBufferLayout.fingerprintInput f DeviceConfig.spmdGpu ∈
        ({ArgBufferLayout.fingerprintInput ArgBufferLayout.scratchKernel DeviceConfig.spmdGpu} : Set ByteArray)) ∧
      ∃ p' reports, (Pass.create DeviceConfig.spmdGpu).runEach scratchModules = .ok (p', reports) ∧
        p'.layouts.Computed {ArgBufferLayout.fingerprintInput ArgBufferLayout.scratchKernel DeviceConfig.spmdGpu} ∧
        List.Forall₂ (fun m report => ∀ s ∈ report.skipped, SubgroupSkip m DeviceConfig.spmdGpu s)
          scratchModules reports := by
  have hinj := Set.injOn_singleton Blake3.hexDigest
    (ArgBufferLayout.fingerprintInput ArgBufferLayout.scratchKernel DeviceConfig.spmdGpu)
  have hC : (Pass.create DeviceConfig.spmdGpu).layouts.Computed
      {ArgBufferLayout.fingerprintInput ArgBufferLayout.scratchKernel DeviceConfig.spmdGpu} :=
    LayoutCache.Computed.empty
  have hc : DeviceConfig.spmdGpu.WordsFit := by
    unfold DeviceConfig.WordsFit
    decide
  -- both kernels have the same signature, so the same fingerprinted byte string
  have hS : ∀ m ∈ scratchModules, ∀ f ∈ m.functions, ArgBufferLayout.fingerprintInput f DeviceConfig.spmdGpu ∈
      ({ArgBufferLayout.fingerprintInput ArgBufferLayout.scratchKernel DeviceConfig.spmdGpu} : Set ByteArray) := by
    simp only [scratchModules, List.mem_cons, List.not_mem_nil, or_false, forall_eq_or_imp,
      forall_eq, Set.mem_singleton_iff, true_and]
    exact ArgBufferLayout.fingerprintInput_congr rfl rfl
  obtain ⟨⟨p', reports⟩, hrun⟩ := except_exists_ok_of_toBool
    (show ((Pass.create DeviceConfig.spmdGpu).runEach scratchModules).toBool = true by decide +kernel)
  exact ⟨hinj, hC, hc, hS, p', reports, hrun, recorded_layouts_agree.2.2.2.2.2.2.2 _ _ _ _ _ hinj hC hc hS hrun⟩

end Pass

end KernelLaunch
