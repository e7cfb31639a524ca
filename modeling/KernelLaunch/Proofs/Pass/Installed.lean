import KernelLaunch.Proofs.Pass.Additions

/-!
# Launcher sets installed by a run

Every launcher set a run reports is *installed* in the module it answers: the set is the one the
generator makes for its kernel on the device, and each of its launchers is among the module's
functions as generated for its variant. `runOnModule_installs` proves this for a whole run from
what one kernel's emission carries (`processKernel_installs`); launches then find each launcher by
its symbol, since the module's names are pairwise different (`Module.get?_of_mem`).
-/

namespace KernelLaunch

/-- Of two lists related entrywise, every entry of the first has its partner in the second. -/
theorem exists_mem_of_forall₂ {α β : Type} {R : α → β → Prop} {xs : List α} {ys : List β}
    (h : List.Forall₂ R xs ys) : ∀ x ∈ xs, ∃ y ∈ ys, R x y := by
  induction h with
  | nil => simp
  | cons hxy _ ih =>
      intro x hx
      rcases List.mem_cons.mp hx with rfl | hx
      · exact ⟨_, List.mem_cons_self, hxy⟩
      · obtain ⟨y, hy, hR⟩ := ih x hx
        exact ⟨y, List.mem_cons_of_mem _ hy, hR⟩

namespace Module

/-- In a module whose names are pairwise different, every function is found by its name. -/
theorem get?_of_mem {m : Module} {f : Function} (hnd : (m.functions.map (·.name)).Nodup)
    (hf : f ∈ m.functions) : m.get? f.name = some f := by
  cases hget : m.get? f.name with
  | none =>
      unfold get? at hget
      exact absurd (List.find?_eq_none.mp hget f hf) (by simp)
  | some g =>
      -- the function found has the name of `f`, and only `f` has that name
      obtain ⟨hgn, hgm⟩ := get?_eq_some hget
      rw [List.inj_on_of_nodup_map hnd hgm hf hgn]

/-- Appending functions changes nothing a module already finds by name. -/
theorem get?_append_of_mem {m₀ : Module} {fs : List Function} {name : String}
    (hn : name ∈ m₀.functions.map (·.name)) (m : Module) (hm : m.functions = m₀.functions ++ fs) :
    m.get? name = m₀.get? name := by
  obtain ⟨f, hf, rfl⟩ := List.mem_map.mp hn
  unfold get?
  rw [hm, List.find?_append]
  cases hfind : m₀.functions.find? (·.name == f.name) with
  | some g => rfl
  | none => exact absurd (List.find?_eq_none.mp hfind f hf) (by simp)

end Module

namespace Pass

variable {p : Pass} {name : String} {kernel : Function}

/-- A fast size is the kernel's fixed local size. -/
theorem fixedLocalSize_of_fastSizeOf {c : DeviceConfig} {size : Dims3} (h : fastSizeOf kernel c = .ok (some size)) :
    fixedLocalSize kernel c = .ok size := by
  unfold fastSizeOf at h
  split at h
  · split at h
    · rename_i s hs
      split at h
      · cases h
        exact hs
      · cases h
    · cases h
  · cases h

/-- A fixed local size is the kernel's required work-group size, or else the device's. -/
theorem fixedLocalSize_eq_ok {c : DeviceConfig} {size : Dims3} (h : fixedLocalSize kernel c = .ok size) :
    size = kernel.attrs.reqdWorkGroupSize.getD c.localSize := by
  unfold fixedLocalSize at h
  simp only [List.forIn_cons, List.forIn_nil, bind, Except.bind, pure, Except.pure] at h
  -- every way out but the last is a diagnostic
  repeat' split at h
  all_goals first | (cases h; rfl) | cases h

/-- A layout a kernel gets is there exactly on a device with argument-buffer launchers, and is the
kernel's computed layout. -/
theorem layoutFor_eq_ok {layout : Option ArgBufferLayout} (h : p.layoutFor name kernel = .ok (.ok layout)) :
    layout.isSome = p.cfg.argBufferLauncher ∧
      ∀ l, layout = some l → ArgBufferLayout.compute kernel p.cfg = .ok (.ok l) := by
  unfold layoutFor at h
  split at h
  · rename_i hab
    rcases hl : ArgBufferLayout.compute kernel p.cfg with fault | d | l
    · simp [hl, Except.map] at h
    · simp [hl, Except.map] at h
    · simp only [hl, Except.map] at h
      split at h
      · cases h
      · cases h
        exact ⟨by simp [hab], fun l' hl' => by cases hl'; rfl⟩
  · cases h
    rename_i hab
    exact ⟨by simp [hab], fun l hl => by cases hl⟩

end Pass

namespace LauncherSet

/-- The launcher generator of a set's kernel on a device, with the device's context layout. -/
def gen (S : LauncherSet) (c : DeviceConfig) (kernel : Function) : LauncherGen :=
  { cfg := c, context := ContextLayout.ofDevice c, kernel, subgroupSize := S.subgroupSize }

/-- A launcher set is installed among the functions `fs` for `kernel` on the device `c`: it is the
set the generator makes for the kernel, with the fast size and the layout the kernel gets on the
device, and each launcher of that set is among `fs`, as generated for its variant. -/
def Installed (c : DeviceConfig) (fs : List Function) (kernel : Function) (S : LauncherSet) : Prop :=
  ∃ fastSize layout, Pass.fastSizeOf kernel c = .ok fastSize ∧ layout.isSome = c.argBufferLauncher ∧
    (∀ l, layout = some l → ArgBufferLayout.compute kernel c = .ok (.ok l)) ∧
    S = (S.gen c kernel).launcherSet kernel.name S.workgroupBody fastSize layout ∧
    ∀ v ∈ (S.gen c kernel).variants kernel.name S.workgroupBody fastSize layout,
      ∃ f ∈ fs, ∃ log, (S.gen c kernel).generate v = .ok (f, log)

/-- A set installed among some functions is installed among any that include them. -/
theorem Installed.mono {c : DeviceConfig} {fs fs' : List Function} {kernel : Function} {S : LauncherSet}
    (h : S.Installed c fs kernel) (hsub : ∀ f ∈ fs, f ∈ fs') : S.Installed c fs' kernel := by
  obtain ⟨fastSize, layout, hf, hl, hcomp, hS, hgen⟩ := h
  refine ⟨fastSize, layout, hf, hl, hcomp, hS, fun v hv => ?_⟩
  obtain ⟨f, hfs, log, hv⟩ := hgen v hv
  exact ⟨f, hsub f hfs, log, hv⟩

/-- The launcher a work-group is entered through directly: the fast one if there is one, else
the default one. -/
def inner (S : LauncherSet) : String := S.fast.getD S.default

/-- The body the direct launchers call: the fast body if there is a fast launcher. -/
def entryBody (S : LauncherSet) : String := S.fastBody.getD S.body

section Lookup

variable {c : DeviceConfig} {m : Module} {kernel : Function} {S : LauncherSet}

/-- Every launcher of an installed set is found in a module with pairwise different names under
its variant's symbol, as generated for its variant. -/
theorem Installed.find (h : S.Installed c m.functions kernel) (hnd : (m.functions.map (·.name)).Nodup) :
    ∃ fastSize layout, Pass.fastSizeOf kernel c = .ok fastSize ∧ layout.isSome = c.argBufferLauncher ∧
      (∀ l, layout = some l → ArgBufferLayout.compute kernel c = .ok (.ok l)) ∧
      S = (S.gen c kernel).launcherSet kernel.name S.workgroupBody fastSize layout ∧
      ∀ v ∈ (S.gen c kernel).variants kernel.name S.workgroupBody fastSize layout,
        ∃ f log, m.get? (v.kind.symbol kernel.name) = some f ∧ (S.gen c kernel).generate v = .ok (f, log) := by
  obtain ⟨fastSize, layout, hf, hsome, hcomp, hS, hgen⟩ := h
  refine ⟨fastSize, layout, hf, hsome, hcomp, hS, fun v hv => ?_⟩
  obtain ⟨f, hfm, log, hv⟩ := hgen v hv
  have hname : f.name = v.kind.symbol kernel.name := LauncherGen.name_generate hv
  exact ⟨f, log, hname ▸ Module.get?_of_mem hnd hfm, hv⟩

/-- The direct launcher of an installed set is the fast or the default one, found under its
symbol; it covers a work-group with the set's body, with the loop bounds read from the context, or
fixed to the fast size when the set has a fast launcher. -/
theorem Installed.inner (h : S.Installed c m.functions kernel) (hnd : (m.functions.map (·.name)).Nodup) :
    ∃ kind bounds f log, (kind = .default ∨ kind = .fast) ∧ m.get? S.inner = some f ∧
      S.inner = kind.symbol kernel.name ∧
      (S.gen c kernel).generate ⟨kind, .direct, .forward,
        .perGroup S.workgroupBody c.spmd S.entryBody bounds⟩ = .ok (f, log) ∧
      (bounds = .context ∨ ∃ size, bounds = .fixed size ∧ fixedLocalSize kernel c = .ok size ∧ S.fast.isSome) ∧
      ∃ b : BodyFlavor, S.entryBody = b.symbol kernel.name := by
  obtain ⟨fastSize, layout, hf, -, -, hS, hfind⟩ := h.find hnd
  cases fastSize with
  | none =>
      have hinner : S.inner = LauncherKind.default.symbol kernel.name := by rw [hS]; rfl
      have hbody : S.entryBody = BodyFlavor.dynamic.symbol kernel.name := by rw [hS]; rfl
      obtain ⟨f, log, hget, hv⟩ := hfind ⟨.default, .direct, .forward,
        .perGroup S.workgroupBody c.spmd (BodyFlavor.dynamic.symbol kernel.name) .context⟩
        (by simp [LauncherGen.variants, gen])
      exact ⟨.default, .context, f, log, .inl rfl, hinner ▸ hget, hinner, hbody ▸ hv, .inl rfl, .dynamic, hbody⟩
  | some size =>
      have hinner : S.inner = LauncherKind.fast.symbol kernel.name := by rw [hS]; rfl
      have hbody : S.entryBody = (BodyFlavor.fixed size).symbol kernel.name := by rw [hS]; rfl
      obtain ⟨f, log, hget, hv⟩ := hfind ⟨.fast, .direct, .forward,
        .perGroup S.workgroupBody c.spmd ((BodyFlavor.fixed size).symbol kernel.name) (.fixed size)⟩
        (by simp [LauncherGen.variants, gen])
      have hfast : S.fast.isSome := by rw [hS]; rfl
      exact ⟨.fast, .fixed size, f, log, .inr rfl, hinner ▸ hget, hinner, hbody ▸ hv,
        .inr ⟨size, rfl, Pass.fixedLocalSize_of_fastSizeOf hf, hfast⟩, .fixed size, hbody⟩

/-- A set is entered directly through its inner launcher, or through its argument-buffer
launcher, found under its symbol, which reads the arguments out of the buffer laid out by the
kernel's computed layout and delegates to the inner launcher. -/
theorem Installed.entry (h : S.Installed c m.functions kernel) (hnd : (m.functions.map (·.name)).Nodup) :
    (S.argBuffer = none ∧ S.layout = none ∧ S.entry = S.inner) ∨
      ∃ l f log, S.argBuffer = some S.entry ∧ S.layout = some l ∧
        S.entry = LauncherKind.argBuffer.symbol kernel.name ∧ m.get? S.entry = some f ∧
        (S.gen c kernel).generate ⟨.argBuffer, .buffer, .unpack l, .delegate S.inner⟩ = .ok (f, log) ∧
        ArgBufferLayout.compute kernel c = .ok (.ok l) := by
  obtain ⟨fastSize, layout, -, -, hcomp, hS, hfind⟩ := h.find hnd
  cases layout with
  | none =>
      refine .inl ⟨by rw [hS]; rfl, by rw [hS]; rfl, ?_⟩
      rw [hS]
      rfl
  | some l =>
      have hentry : S.entry = LauncherKind.argBuffer.symbol kernel.name := by rw [hS]; rfl
      have hinner : S.inner = (fastSize.map fun _ => LauncherKind.fast.symbol kernel.name).getD
          (LauncherKind.default.symbol kernel.name) := by rw [hS]; rfl
      obtain ⟨f, log, hget, hv⟩ := hfind ⟨.argBuffer, .buffer, .unpack l, .delegate S.inner⟩
        (by rw [hinner]; simp [LauncherGen.variants])
      exact .inr ⟨l, f, log, by rw [hentry, hS]; rfl, by rw [hS]; rfl, hentry, hentry ▸ hget, hv, hcomp l rfl⟩

/-- The launchers a work-group goes through and the body they call have different names. -/
theorem Installed.names_apart (h : S.Installed c m.functions kernel) (hnd : (m.functions.map (·.name)).Nodup) :
    S.inner ≠ S.entryBody ∧ S.entry ≠ S.entryBody ∧ (S.argBuffer.isSome → S.entry ≠ S.inner) := by
  obtain ⟨kind, -, -, -, hkind, -, hinner, -, -, b, hbody⟩ := h.inner hnd
  have hne : ∀ k : LauncherKind, k.symbol kernel.name ≠ S.entryBody := fun k => by
    rw [hbody]
    exact LauncherKind.symbol_ne_bodySymbol k b kernel.name
  rcases h.entry hnd with ⟨hnone, -, hentry⟩ | ⟨l, f, log, -, -, hentry, -⟩
  · refine ⟨hinner ▸ hne kind, hentry ▸ hinner ▸ hne kind, fun habuf => ?_⟩
    rw [hnone] at habuf
    cases habuf
  · refine ⟨hinner ▸ hne kind, hentry ▸ hne .argBuffer, fun _ heq => ?_⟩
    rw [hentry, hinner] at heq
    -- the argument-buffer launcher is neither the fast nor the default one
    rcases hkind with rfl | rfl <;> exact absurd (LauncherKind.symbol_injective kernel.name heq) (by decide)

end Lookup

end LauncherSet

namespace Pass

variable {p : Pass} {m : Module} {g : CallGraph} {name : String}

/-- A kernel's emission installs its launcher set among the functions it makes, for the kernel the
module has under its name, when the pass works with the device's context layout. -/
theorem processKernel_installs {log : Log} {e : Emission} (hctx : p.context = ContextLayout.ofDevice p.cfg)
    (h : p.processKernel m g name = .ok (log, .ok e)) :
    ∃ kernel, m.get? name = some kernel ∧ e.set.Installed p.cfg e.functions kernel := by
  obtain ⟨kernel, sg, fastSize, layout, bodyLog, bodies, launchers, notes, hk, -, -, -, hf, hl, -, he, -, hfun⟩ :=
    processKernel_eq_ok h
  have hname : kernel.name = name := (Module.get?_eq_some hk).1
  subst hname
  obtain ⟨hF, hS⟩ := LauncherGen.emitLaunchers_eq_ok he
  -- the generator the kernel was emitted with is the set's own on the device
  have hgen : e.set.gen p.cfg kernel = { cfg := p.cfg, context := p.context, kernel, subgroupSize := sg } := by
    rw [LauncherSet.gen, hctx, hS]
    rfl
  have hshaped : e.set.workgroupBody = kernel.hasWorkgroupBarriers m g := by
    rw [hS]
    rfl
  obtain ⟨hsome, hcomp⟩ := layoutFor_eq_ok hl
  refine ⟨kernel, hk, fastSize, layout, hf, hsome, hcomp, ?_, fun v hv => ?_⟩
  · rw [hgen, hshaped]
    exact hS
  · rw [hgen, hshaped] at hv
    rw [hgen]
    obtain ⟨f, hf, hR⟩ := exists_mem_of_forall₂ hF v hv
    exact ⟨f, hfun ▸ List.mem_append_right _ hf, hR⟩

/-- What a run over the module `m₀` on the device `c` keeps true, with `rest` the kernels still to
visit: the pass keeps the device and its context layout, the module is `m₀` with functions
appended, the kernels still to visit are named in `m₀`, and every launcher set reported is
installed for the kernel `m₀` has under the set's name. -/
structure Installing (c : DeviceConfig) (m₀ : Module) (rest : List String)
    (st : Pass × Module × PassReport × Log) : Prop where
  cfg_eq : st.1.cfg = c
  context_eq : st.1.context = ContextLayout.ofDevice c
  extends_ : ∃ fs, st.2.1.functions = m₀.functions ++ fs
  pending : ∀ n ∈ rest, n ∈ m₀.functions.map (·.name)
  installed : ∀ S ∈ st.2.2.1.launchers, ∃ kernel, m₀.get? S.kernel = some kernel ∧
    S.Installed c st.2.1.functions kernel

/-- Visiting the next kernel keeps every launcher set reported installed. -/
theorem Installing.visit {c : DeviceConfig} {m₀ : Module} {rest : List String}
    {st st' : Pass × Module × PassReport × Log} (hI : Installing c m₀ (name :: rest) st)
    (h : visitKernel st name = .ok st') : Installing c m₀ rest st' := by
  obtain ⟨p, m, report, log⟩ := st
  obtain ⟨p', m', report', log'⟩ := st'
  obtain ⟨hcfg, hctx, ⟨fs, hfs⟩, hpend, hinst⟩ := hI
  have hfs' : m.functions = m₀.functions ++ fs := hfs
  have hpend' : ∀ n ∈ rest, n ∈ m₀.functions.map (·.name) := fun n hn => hpend n (List.mem_cons_of_mem _ hn)
  rcases visitKernel_eq_ok h with ⟨notes, e, hpk, rfl, rfl, rfl⟩ | ⟨notes, s, hpk, rfl, rfl, rfl⟩
  · obtain ⟨decl, -, hm, -, hcfg', hctx'⟩ := commit_eq p m e
    have hgrow : ∀ f ∈ m.functions, f ∈ (p.commit m e).2.1.functions := by
      rw [hm]
      exact fun f hf => List.mem_append_left _ (List.mem_append_left _ hf)
    refine ⟨hcfg'.trans hcfg, hctx'.trans (hcfg ▸ hctx), ⟨fs ++ decl ++ e.functions, by simp [hm, hfs']⟩, hpend',
      fun S hS => ?_⟩
    rcases List.mem_append.mp hS with hS | hS
    · obtain ⟨kernel, hk, hinstS⟩ := hinst S hS
      exact ⟨kernel, hk, hinstS.mono hgrow⟩
    · rw [List.mem_singleton.mp hS]
      obtain ⟨kernel, hk, hinstS⟩ := processKernel_installs (hcfg ▸ hctx) hpk
      -- the kernel visited is the one of the original module, since the module only grew
      have hk₀ : m₀.get? name = some kernel :=
        (Module.get?_append_of_mem (hpend name List.mem_cons_self) m hfs).symm.trans hk
      have hkernel : e.set.kernel = name := by
        obtain ⟨_, _, _, _, _, hset, _⟩ := hinstS
        rw [hset, (Module.get?_eq_some hk).1]
        rfl
      refine ⟨kernel, hkernel ▸ hk₀, ?_⟩
      rw [← hcfg]
      exact hinstS.mono fun f hf => by rw [hm]; exact List.mem_append_right _ hf
  · exact ⟨hcfg, hctx, ⟨fs, hfs⟩, hpend', hinst⟩

/-- Every launcher set a run reports is installed in the module it answers, for the kernel the
module had under the set's name, when the pass works with the device's context layout. -/
theorem runOnModule_installs {p p' : Pass} {m m' : Module} {report : PassReport} {log : Log}
    (hctx : p.context = ContextLayout.ofDevice p.cfg) (h : p.runOnModule m = .ok (p', m', report, log)) :
    ∀ S ∈ report.launchers, ∃ kernel, m.get? S.kernel = some kernel ∧ S.Installed p.cfg m'.functions kernel := by
  obtain ⟨log₀, m₁, log₁, hfold, hfun⟩ := runOnModule_eq_ok h
  have hstart : Installing p.cfg m ((m.functions.filter (·.isKernelToProcess m)).map (·.name))
      ({ p with outputs := {} }, m, {}, log₀) :=
    ⟨rfl, hctx, ⟨[], by simp⟩, fun n hn => List.map_subset _ List.filter_sublist.subset hn, by simp⟩
  have hend := foldlM_visitKernel (I := Installing p.cfg m) (fun _ _ _ _ hI hv => hI.visit hv) _ hstart hfold
  intro S hS
  obtain ⟨kernel, hk, hinst⟩ := hend.installed S hS
  exact ⟨kernel, hk, hfun ▸ hinst⟩

/-- A run gives the local-id intrinsic no body: the module it makes has a function of that name
with a body only where the module it ran over had one. -/
theorem body_localId_runOnModule {p p' : Pass} {m m' : Module} {report : PassReport} {log : Log}
    (hnames : (m.functions.map (·.name)).Nodup) (h : p.runOnModule m = .ok (p', m', report, log))
    (hdecl : ∀ f ∈ m.functions, f.name = localIdIntrinsic → f.body = none) :
    ∀ f ∈ m'.functions, f.name = localIdIntrinsic → f.body = none := by
  obtain ⟨m₁, log₁, added, hv, hfun⟩ := runOnModule_visited hnames h
  have hm₁ : m₁ = { m with functions := m.functions ++ added.flatten } := hv.module_eq
  intro f hf hname
  rw [hfun, hm₁, List.mem_append] at hf
  rcases hf with hf | hf
  · exact hdecl f hf hname
  · -- an appended function is the intrinsic's declaration or made for a set, under another name
    obtain ⟨fs, hfs, hf⟩ := List.mem_flatten.mp hf
    obtain ⟨S, -, hS⟩ := exists_mem_of_forall₂ hv.committed.flip fs hfs
    rcases hS.1 f hf with rfl | hmakes
    · rfl
    · exact absurd hname (name_ne_localIdIntrinsic hmakes hS.2.2)

end Pass

end KernelLaunch
