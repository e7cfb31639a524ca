import KernelLaunch.Proofs.Pass.Emission

/-!
# What a run adds to a module

A run of the pass over a module visits its kernels one after another, each against the module as
extended by the kernels before it. `processKernel_fresh` says what one kernel's emission adds: its
bodies, launchers and new output clones, under names the module does not have. `Visited` is what
the run keeps true from kernel to kernel, and `runOnModule_appends_fresh` is the result for a whole
run: the module's functions stay where they were, each launcher set reported comes with the group of
functions appended for it, nothing is appended for a skipped kernel, and names stay pairwise
different.
-/

namespace KernelLaunch

namespace LauncherSet

/-- Every symbol a launcher set names: its bodies and its launchers. -/
def symbols (S : LauncherSet) : List String := S.body :: S.fastBody.toList ++ S.launchers

/-- A function made for a launcher set: one of the set's bodies or launchers, or the output clone
of a helper, marked as derived from it. -/
def Makes (S : LauncherSet) (f : Function) : Prop :=
  f.name ∈ S.symbols ∨ ∃ helper, f.name = cloneName helper ∧ f.attrs.derivedFrom = some helper

end LauncherSet

namespace LauncherGen

variable {gen : LauncherGen} {name : String} {shaped : Bool} {fastSize : Option Dims3}
  {layout : Option ArgBufferLayout}

/-- Launchers generated one for each variant are named for their variants' kinds. -/
theorem map_name_of_forall₂ {vs : List Variant} {fns : List Function}
    (h : List.Forall₂ (fun v f => ∃ log, gen.generate v = .ok (f, log)) vs fns) :
    fns.map (·.name) = vs.map (·.kind.symbol gen.kernel.name) := by
  induction h with
  | nil => rfl
  | cons hf _ ih =>
      obtain ⟨log, hgen⟩ := hf
      simp [name_generate hgen, ih]

theorem map_name_emitLaunchers {fns : List Function} {notes : Log} {S : LauncherSet}
    (h : gen.emitLaunchers name shaped fastSize layout = .ok (fns, notes, S)) :
    fns.map (·.name) = (gen.variants name shaped fastSize layout).map (·.kind.symbol gen.kernel.name) :=
  map_name_of_forall₂ (emitLaunchers_eq_ok h).1

/-- A kernel's launcher set names the bodies of its flavors, then its launchers. -/
theorem symbols_launcherSet :
    (gen.launcherSet name shaped fastSize layout).symbols =
      (BodyFlavor.dynamic :: (fastSize.map BodyFlavor.fixed).toList).map (·.symbol name) ++
        (gen.variants name shaped fastSize layout).map (·.kind.symbol name) := by
  rw [LauncherSet.symbols, launchers_launcherSet]
  cases fastSize <;> rfl

/-- A kernel's launchers have pairwise different symbols. -/
theorem nodup_symbols_variants (k : String) :
    ((gen.variants name shaped fastSize layout).map (·.kind.symbol k)).Nodup := by
  have h : (((gen.variants name shaped fastSize layout).map (·.kind)).map (LauncherKind.symbol · k)).Nodup :=
    nodup_kinds_variants.map (LauncherKind.symbol_injective k)
  rwa [List.map_map] at h

theorem generatedFor_of_mem_symbols {n : String} (hn : n ∈ (gen.launcherSet name shaped fastSize layout).symbols) :
    GeneratedFor name n := by
  rw [symbols_launcherSet, List.mem_append, List.mem_map, List.mem_map] at hn
  rcases hn with ⟨b, -, rfl⟩ | ⟨v, -, rfl⟩
  · exact BodyFlavor.generatedFor_symbol _ _
  · exact LauncherKind.generatedFor_symbol _ _

end LauncherGen

namespace Pass

variable {p : Pass} {m : Module} {g : CallGraph} {name : String}

/-- The flavors a kernel's bodies are derived for have different symbols. -/
theorem nodup_flavorSymbols (fastSize : Option Dims3) (k : String) :
    ((BodyFlavor.dynamic :: (fastSize.map BodyFlavor.fixed).toList).map (·.symbol k)).Nodup := by
  cases fastSize with
  | none => simp
  | some size =>
      simp only [Option.map_some, Option.toList_some, List.map_cons, List.map_nil, List.nodup_cons,
        List.mem_singleton, List.not_mem_nil, not_false_eq_true, List.nodup_nil, and_true]
      intro h
      rw [BodyFlavor.symbol_eq, BodyFlavor.symbol_eq] at h
      exact absurd ((String.append_right_inj _).mp h) (by simp [BodyFlavor.suffix])

/-- What a kernel's emission adds to a module: functions with pairwise different names that the
module does not have, each a body or a launcher of the kernel's launcher set or a helper's clone,
and one for every symbol the set names, each generated for the kernel. -/
theorem processKernel_fresh {log : Log} {e : Emission} (hc : p.outputs.Named)
    (h : p.processKernel m g name = .ok (log, .ok e)) :
    e.outputs.Named ∧ e.set.kernel = name ∧ (∀ n ∈ e.set.symbols, GeneratedFor name n) ∧
      (e.functions.map (·.name)).Nodup ∧
      (∀ f ∈ e.functions, e.set.Makes f ∧ f.name ∉ m.functions.map (·.name)) ∧
      ∀ n ∈ e.set.symbols, ∃ f ∈ e.functions, f.name = n := by
  obtain ⟨kernel, sg, fastSize, layout, bodyLog, bodies, launchers, notes, hk, -, -, -, -, -, hd, he, hx, hfun⟩ :=
    processKernel_eq_ok h
  have hname : kernel.name = name := (Module.get?_eq_some hk).1
  subst hname
  obtain ⟨hN, -, fs, hfs, hmade, hall, hnd⟩ := deriveBodies_eq_ok _ hc hd
  rw [List.nil_append] at hfs
  subst hfs
  have hS := (LauncherGen.emitLaunchers_eq_ok he).2
  have hL := LauncherGen.map_name_emitLaunchers he
  -- the set names the bodies of the flavors, then the launchers, in the order they were made
  have hsym : e.set.symbols =
      (BodyFlavor.dynamic :: (fastSize.map BodyFlavor.fixed).toList).map (·.symbol kernel.name) ++
        launchers.map (·.name) := by
    rw [hS, LauncherGen.symbols_launcherSet, hL]
  have hgen : ∀ n ∈ e.set.symbols, GeneratedFor kernel.name n := by
    rw [hS]
    exact fun n hn => LauncherGen.generatedFor_of_mem_symbols hn
  have hlaunch : ∀ f ∈ launchers, GeneratedFor kernel.name f.name := fun f hf =>
    hgen _ (hsym ▸ List.mem_append_right _ (List.mem_map_of_mem hf))
  refine ⟨hN, by rw [hS]; rfl, hgen, ?_, fun f hf => ⟨?_, (Pass.collision_eq_none.mp hx) f (hfun ▸ hf)⟩,
    fun n hn => ?_⟩
  · -- bodies and launchers are apart: a clone is generated for no kernel, a body not as a launcher
    rw [hfun, List.map_append, List.nodup_append]
    refine ⟨hnd (nodup_flavorSymbols _ _), ?_, ?_⟩
    · rw [hL]
      exact LauncherGen.nodup_symbols_variants _
    · intro a ha b hb hab
      obtain ⟨f, hf, rfl⟩ := List.mem_map.mp ha
      obtain ⟨l, hl, rfl⟩ := List.mem_map.mp hb
      obtain ⟨v, -, hv⟩ := List.mem_map.mp (hL ▸ List.mem_map_of_mem hl : l.name ∈ _)
      rcases hmade f hf with ⟨b', -, hb'⟩ | ⟨x, hx', -⟩
      · exact LauncherKind.symbol_ne_bodySymbol v.kind b' kernel.name (hv.trans (hab.symm.trans hb'))
      · exact not_generatedFor_cloneName x _ (hx' ▸ hab ▸ hlaunch l hl)
  · rw [hfun, List.mem_append] at hf
    rcases hf with hf | hf
    · rcases hmade f hf with ⟨b, hb, hname⟩ | ⟨x, hclone, hfrom, -, -⟩
      · left
        rw [hsym, hname]
        exact List.mem_append_left _ (List.mem_map_of_mem hb)
      · exact .inr ⟨x, hclone, hfrom⟩
    · left
      rw [hsym]
      exact List.mem_append_right _ (List.mem_map_of_mem hf)
  · rw [hsym, List.mem_append] at hn
    rcases hn with hn | hn
    · obtain ⟨b, hb, rfl⟩ := List.mem_map.mp hn
      obtain ⟨f, hf, hfn⟩ := hall b hb
      exact ⟨f, hfun ▸ List.mem_append_left _ hf, hfn⟩
    · obtain ⟨f, hf, rfl⟩ := List.mem_map.mp hn
      exact ⟨f, hfun ▸ List.mem_append_right _ hf, rfl⟩

/-- A kernel whose layout is refused is skipped under its own name. -/
theorem kernel_of_layoutFor {kernel : Function} {s : KernelSkip} (h : p.layoutFor name kernel = .ok (.error s)) :
    s.kernel = name := by
  unfold layoutFor at h
  split at h
  · rcases hl : ArgBufferLayout.compute kernel p.cfg with fault | d | l
    · simp [hl, Except.map] at h
    · simp only [hl, Except.map, Except.ok.injEq, Except.error.injEq] at h
      rw [← h]
    · simp only [hl, Except.map] at h
      split at h
      · simp only [Except.ok.injEq, Except.error.injEq] at h
        rw [← h]
      · cases h
  · cases h

/-- A skipped kernel is reported under the name it was processed by. -/
theorem kernel_of_processKernel_skip {log : Log} {s : KernelSkip}
    (h : p.processKernel m g name = .ok (log, .error s)) : s.kernel = name := by
  unfold processKernel at h
  simp only [bind, Except.bind, pure, Except.pure] at h
  repeat' split at h
  all_goals first
    | (simp only [Except.ok.injEq, Prod.mk.injEq, Except.error.injEq] at h; obtain ⟨-, rfl⟩ := h; rfl)
    | (simp only [Except.ok.injEq, Prod.mk.injEq, Except.error.injEq] at h; obtain ⟨-, rfl⟩ := h;
        exact kernel_of_layoutFor ‹_›)
    | cases h

/-- Visiting a kernel either commits its emission to the module and reports its launcher set, or
leaves pass and module as they were and reports the kernel skipped. -/
theorem visitKernel_eq_ok {p p' : Pass} {m m' : Module} {report report' : PassReport} {log log' : Log}
    (h : visitKernel (p, m, report, log) name = .ok (p', m', report', log')) :
    (∃ notes e, p.processKernel m (CallGraph.build m) name = .ok (notes, .ok e) ∧ p' = (p.commit m e).1 ∧
      m' = (p.commit m e).2.1 ∧ report' = { report with launchers := report.launchers ++ [e.set] }) ∨
    (∃ notes s, p.processKernel m (CallGraph.build m) name = .ok (notes, .error s) ∧ p' = p ∧ m' = m ∧
      report' = { report with skipped := report.skipped ++ [s] }) := by
  simp only [visitKernel] at h
  obtain ⟨⟨notes, outcome⟩, hpk, h⟩ := except_bind_eq_ok.mp h
  cases outcome with
  | ok e =>
      simp only [except_pure_eq_ok, Prod.mk.injEq] at h
      obtain ⟨rfl, rfl, rfl, -⟩ := h
      exact .inl ⟨notes, e, hpk, rfl, rfl, rfl⟩
  | error s =>
      simp only [except_pure_eq_ok, Prod.mk.injEq] at h
      obtain ⟨rfl, rfl, rfl, -⟩ := h
      exact .inr ⟨notes, s, hpk, rfl, rfl, rfl⟩

/-- The functions a run adds for one launcher set it reports: the local-id declaration, or
functions the set makes, with one for each symbol of the set, each generated for the set's kernel. -/
def Committed (S : LauncherSet) (fs : List Function) : Prop :=
  (∀ f ∈ fs, f = localIdDeclaration ∨ S.Makes f) ∧ (∀ n ∈ S.symbols, ∃ f ∈ fs, f.name = n) ∧
    ∀ n ∈ S.symbols, GeneratedFor S.kernel n

/-- A function committed for a launcher set is generated for no kernel but the set's. -/
theorem Committed.eq_kernel {S : LauncherSet} {fs : List Function} (hS : Committed S fs) {f : Function}
    (hf : f ∈ fs) {k : String} (hk : GeneratedFor k f.name) : k = S.kernel := by
  rcases hS.1 f hf with rfl | hsym | ⟨x, hx, -⟩
  · exact absurd hk (not_generatedFor_localIdIntrinsic k)
  · exact hk.unique (hS.2.2 _ hsym)
  · exact absurd (hx ▸ hk) (not_generatedFor_cloneName x k)

/-- A function a launcher set makes is not the local-id intrinsic, when the set's symbols are
generated names. -/
theorem name_ne_localIdIntrinsic {S : LauncherSet} {f : Function} (hf : S.Makes f)
    (hgen : ∀ n ∈ S.symbols, GeneratedFor S.kernel n) : f.name ≠ localIdIntrinsic := by
  intro hname
  rcases hf with hsym | ⟨x, hx, -⟩
  · exact not_generatedFor_localIdIntrinsic S.kernel (hname ▸ hgen _ hsym)
  · exact localIdIntrinsic_ne_cloneName x (hname ▸ hx)

/-- Appending the local-id declaration, when the module has no function of its name, and then
functions with new names keeps a module's names pairwise different. -/
theorem nodup_append_commit {m : Module} {decl fs : List Function} (hm : (m.functions.map (·.name)).Nodup)
    (hdecl : decl = [] ∨ (decl = [localIdDeclaration] ∧ ¬ m.contains localIdIntrinsic))
    (hfs : (fs.map (·.name)).Nodup)
    (hnew : ∀ f ∈ fs, f.name ∉ m.functions.map (·.name) ∧ f.name ≠ localIdIntrinsic) :
    ((m.functions ++ decl ++ fs).map (·.name)).Nodup := by
  rw [List.map_append, List.nodup_append]
  refine ⟨?_, hfs, fun a ha b hb hab => ?_⟩
  · rcases hdecl with rfl | ⟨rfl, hfree⟩
    · simpa using hm
    · rw [List.map_append, List.nodup_append]
      refine ⟨hm, List.nodup_singleton _, fun a ha b hb hab => hfree ?_⟩
      rw [List.map_singleton, List.mem_singleton] at hb
      have hid : a = localIdIntrinsic := hab.trans hb
      exact Module.contains_iff.mpr (hid ▸ ha)
  · obtain ⟨f, hf, rfl⟩ := List.mem_map.mp hb
    rw [List.map_append, List.mem_append] at ha
    rcases ha with ha | ha
    · exact (hnew f hf).1 (hab ▸ ha)
    · rcases hdecl with rfl | ⟨rfl, -⟩
      · simp at ha
      · rw [List.map_singleton, List.mem_singleton] at ha
        exact (hnew f hf).2 (hab ▸ ha)

/-- What a run keeps true of the state it threads through the kernels of the module `m₀`, with
`rest` the kernels still to visit: the module is `m₀` with functions appended, one group for each
launcher set reported, under names that are pairwise different; no kernel reported has a visit
left; and nothing appended is generated for a kernel reported skipped. -/
structure Visited (m₀ : Module) (rest : List String) (added : List (List Function))
    (st : Pass × Module × PassReport × Log) : Prop where
  named : st.1.outputs.Named
  module_eq : st.2.1 = { m₀ with functions := m₀.functions ++ added.flatten }
  nodup : (st.2.1.functions.map (·.name)).Nodup
  committed : List.Forall₂ Committed st.2.2.1.launchers added
  committed_done : ∀ S ∈ st.2.2.1.launchers, S.kernel ∉ rest
  skipped_done : ∀ sk ∈ st.2.2.1.skipped, sk.kernel ∉ rest
  skipped_absent : ∀ sk ∈ st.2.2.1.skipped, ∀ f ∈ added.flatten, ¬ GeneratedFor sk.kernel f.name

/-- A function appended for a reported launcher set is generated for no kernel but the set's. -/
theorem eq_kernel_of_forall₂ {launchers : List LauncherSet} {added : List (List Function)}
    (h : List.Forall₂ Committed launchers added) {f : Function} (hf : f ∈ added.flatten) {k : String}
    (hk : GeneratedFor k f.name) : ∃ S ∈ launchers, k = S.kernel := by
  induction h with
  | nil => simp at hf
  | @cons S fs launchers added hS _ ih =>
      rw [List.flatten_cons, List.mem_append] at hf
      rcases hf with hf | hf
      · exact ⟨S, List.mem_cons_self, hS.eq_kernel hf hk⟩
      · obtain ⟨S', hS', heq⟩ := ih hf
        exact ⟨S', List.mem_cons_of_mem _ hS', heq⟩

/-- Visiting the next kernel keeps what a run keeps true. -/
theorem Visited.visit {m₀ : Module} {rest : List String} {added : List (List Function)}
    {st st' : Pass × Module × PassReport × Log} (hnd : (name :: rest).Nodup) (hv : Visited m₀ (name :: rest) added st)
    (h : visitKernel st name = .ok st') : ∃ added', Visited m₀ rest added' st' := by
  obtain ⟨p, m, report, log⟩ := st
  obtain ⟨p', m', report', log'⟩ := st'
  have hfresh : name ∉ rest := (List.nodup_cons.mp hnd).1
  rcases visitKernel_eq_ok h with ⟨notes, e, hpk, rfl, rfl, rfl⟩ | ⟨notes, s, hpk, rfl, rfl, rfl⟩
  · -- the kernel is committed: its functions form one more group
    obtain ⟨hN, hkernel, hgen, hnodup, hmakes, hsyms⟩ := processKernel_fresh hv.named hpk
    obtain ⟨decl, hdecl, hm, hout, -, -⟩ := commit_eq p m e
    have hgen' : ∀ n ∈ e.set.symbols, GeneratedFor e.set.kernel n := by
      rw [hkernel]
      exact hgen
    have hblock : Committed e.set (decl ++ e.functions) := by
      refine ⟨fun f hf => ?_, fun n hn => ?_, hgen'⟩
      · rcases List.mem_append.mp hf with hf | hf
        · rcases hdecl with rfl | ⟨rfl, -⟩
          · simp at hf
          · exact .inl (List.mem_singleton.mp hf)
        · exact .inr (hmakes f hf).1
      · obtain ⟨f, hf, hfn⟩ := hsyms n hn
        exact ⟨f, List.mem_append_right _ hf, hfn⟩
    refine ⟨added ++ [decl ++ e.functions], ⟨?_, ?_, ?_, ?_, ?_, ?_, ?_⟩⟩
    · simpa only [hout] using hN
    · have hm₀ : m = _ := hv.module_eq
      rw [hm, hm₀]
      simp
    · rw [hm]
      exact nodup_append_commit hv.nodup hdecl hnodup fun f hf =>
        ⟨(hmakes f hf).2, name_ne_localIdIntrinsic (hmakes f hf).1 hgen'⟩
    · exact List.rel_append hv.committed (.cons hblock .nil)
    · intro S hS
      rcases List.mem_append.mp hS with hS | hS
      · exact fun hr => hv.committed_done S hS (List.mem_cons_of_mem _ hr)
      · rw [List.mem_singleton.mp hS, hkernel]
        exact hfresh
    · exact fun sk hsk hr => hv.skipped_done sk hsk (List.mem_cons_of_mem _ hr)
    · intro sk hsk f hf hk
      rw [List.flatten_append, List.mem_append] at hf
      rcases hf with hf | hf
      · exact hv.skipped_absent sk hsk f hf hk
      · -- what this kernel made is generated for it, and a skipped kernel was visited before
        rw [List.flatten_singleton] at hf
        have heq : sk.kernel = name := hkernel ▸ hblock.eq_kernel hf hk
        exact hv.skipped_done sk hsk (heq ▸ List.mem_cons_self)
  · -- the kernel is skipped: the module stays as it was
    have hs : s.kernel = name := kernel_of_processKernel_skip hpk
    refine ⟨added, ⟨hv.named, hv.module_eq, hv.nodup, hv.committed, ?_, ?_, ?_⟩⟩
    · exact fun S hS hr => hv.committed_done S hS (List.mem_cons_of_mem _ hr)
    · intro sk hsk
      rcases List.mem_append.mp hsk with hsk | hsk
      · exact fun hr => hv.skipped_done sk hsk (List.mem_cons_of_mem _ hr)
      · rw [List.mem_singleton.mp hsk, hs]
        exact hfresh
    · intro sk hsk f hf hk
      rcases List.mem_append.mp hsk with hsk | hsk
      · exact hv.skipped_absent sk hsk f hf hk
      · -- a function appended before was generated for a kernel committed before
        rw [List.mem_singleton.mp hsk, hs] at hk
        obtain ⟨S, hS, heq⟩ := eq_kernel_of_forall₂ hv.committed hf hk
        exact hv.committed_done S hS (heq ▸ List.mem_cons_self)

/-- What each visit keeps, indexed by the kernels still to visit, holds once all are visited. -/
theorem foldlM_visitKernel {I : List String → Pass × Module × PassReport × Log → Prop}
    (hstep : ∀ name rest st st', I (name :: rest) st → visitKernel st name = .ok st' → I rest st') :
    ∀ (rest : List String) {st st' : Pass × Module × PassReport × Log}, I rest st →
      rest.foldlM visitKernel st = .ok st' → I [] st'
  | [], st, st', hI, h => by
      rw [List.foldlM_nil, except_pure_eq_ok] at h
      exact h ▸ hI
  | name :: rest, st, st', hI, h => by
      rw [List.foldlM_cons] at h
      obtain ⟨st₁, h₁, h⟩ := except_bind_eq_ok.mp h
      exact foldlM_visitKernel hstep rest (hstep name rest st st₁ hI h₁) h

/-- Visiting kernels with pairwise different names one after another keeps what a run keeps
true, down to the last. -/
theorem Visited.visitAll (m₀ : Module) {rest : List String} {added : List (List Function)}
    {st st' : Pass × Module × PassReport × Log} (hnd : rest.Nodup) (hv : Visited m₀ rest added st)
    (h : rest.foldlM visitKernel st = .ok st') : ∃ added', Visited m₀ [] added' st' := by
  refine (foldlM_visitKernel (I := fun rest st => rest.Nodup ∧ ∃ added, Visited m₀ rest added st)
    ?_ rest ⟨hnd, added, hv⟩ h).2
  rintro name rest st st' ⟨hnd, added, hv⟩ hvisit
  exact ⟨(List.nodup_cons.mp hnd).2, hv.visit hnd hvisit⟩

/-- A run visits the kernels the module has to process, in order, from the pass with no clones
noted; dropping dead handles afterwards leaves the functions and the report as they are. -/
theorem runOnModule_eq_ok {p p' : Pass} {m m' : Module} {report : PassReport} {log : Log}
    (h : p.runOnModule m = .ok (p', m', report, log)) :
    ∃ log₀ m₁ log₁, ((m.functions.filter (·.isKernelToProcess m)).map (·.name)).foldlM visitKernel
        ({ p with outputs := {} }, m, {}, log₀) = .ok (p', m₁, report, log₁) ∧ m'.functions = m₁.functions := by
  unfold runOnModule at h
  obtain ⟨⟨p₁, m₁, report₁, log₁⟩, hfold, h⟩ := except_bind_eq_ok.mp h
  dsimp only at h
  split at h <;>
  · simp only [except_pure_eq_ok, Prod.mk.injEq] at h
    obtain ⟨rfl, rfl, rfl, -⟩ := h
    exact ⟨_, m₁, log₁, hfold, rfl⟩

/-- After a run over a module whose functions have pairwise different names, what every visit
kept holds of the module the last visit left, whose functions the run answers. -/
theorem runOnModule_visited {p p' : Pass} {m m' : Module} {report : PassReport} {log : Log}
    (hnames : (m.functions.map (·.name)).Nodup) (h : p.runOnModule m = .ok (p', m', report, log)) :
    ∃ m₁ log₁ added, Visited m [] added (p', m₁, report, log₁) ∧ m'.functions = m₁.functions := by
  obtain ⟨log₀, m₁, log₁, hfold, hfun⟩ := runOnModule_eq_ok h
  have hkernels : ((m.functions.filter (·.isKernelToProcess m)).map (·.name)).Nodup :=
    hnames.sublist (List.filter_sublist.map _)
  obtain ⟨added, hv⟩ := Visited.visitAll m hkernels
    (show Visited m _ [] _ from ⟨OutputClones.Named.empty, by simp, hnames, .nil, by simp, by simp, by simp⟩) hfold
  exact ⟨m₁, log₁, added, hv, hfun⟩

/-- A run over a module whose functions have pairwise different names answers a module whose
functions have pairwise different names. -/
theorem nodup_runOnModule {p p' : Pass} {m m' : Module} {report : PassReport} {log : Log}
    (hnames : (m.functions.map (·.name)).Nodup) (h : p.runOnModule m = .ok (p', m', report, log)) :
    (m'.functions.map (·.name)).Nodup := by
  obtain ⟨m₁, log₁, added, hv, hfun⟩ := runOnModule_visited hnames h
  exact hfun ▸ hv.nodup

/-- How a run may change a module's functions: every function of `m` stays where it was, and after
them come, for each launcher set reported, the group of functions committed for it, with the
local-id declaration at most once; nothing appended is generated for a kernel reported skipped,
and the names are pairwise different. -/
def Appends (m m' : Module) (report : PassReport) : Prop :=
  ∃ added : List (List Function), m'.functions = m.functions ++ added.flatten ∧
    (m'.functions.map (·.name)).Nodup ∧ List.Forall₂ Committed report.launchers added ∧
    (∀ sk ∈ report.skipped, ∀ f ∈ added.flatten, ¬ GeneratedFor sk.kernel f.name) ∧
    added.flatten.countP (·.name == localIdIntrinsic) ≤ 1

/-- A run over a module whose functions have pairwise different names only appends to it: the
bodies, launchers and new output clones of the kernels it commits, and the local-id declaration. -/
theorem runOnModule_appends_fresh {p p' : Pass} {m m' : Module} {report : PassReport} {log : Log}
    (hnames : (m.functions.map (·.name)).Nodup) (h : p.runOnModule m = .ok (p', m', report, log)) :
    Appends m m' report := by
  obtain ⟨m₁, log₁, added, hv, hfun⟩ := runOnModule_visited hnames h
  have hnodup := nodup_runOnModule hnames h
  have hm₁ : m₁ = _ := hv.module_eq
  have hadded : m'.functions = m.functions ++ added.flatten := by rw [hfun, hm₁]
  refine ⟨added, hadded, hnodup, hv.committed, hv.skipped_absent, ?_⟩
  rw [hadded] at hnodup
  -- the names appended are pairwise different, so one of them at most is the intrinsic's
  rw [List.map_append] at hnodup
  have hcount := List.nodup_iff_count_le_one.mp hnodup.of_append_right localIdIntrinsic
  simpa [List.count, List.countP_map, Function.comp_def] using hcount

/-- A module with a kernel the pass commits and one it skips, since the subgroup size the
second one requires is not offered. -/
def committedAndSkipped : Module :=
  { name := "m",
    functions := [{ name := "k", body := some [.ret], attrs := { kernel := true } },
      { name := "narrow", body := some [.ret], attrs := { kernel := true, reqdSubgroupSize := some 7 } }] }

theorem runOnModule_appends_committedAndSkipped :
    (committedAndSkipped.functions.map (·.name)).Nodup ∧
      ∃ p' m' report log, (Pass.create DeviceConfig.spmdGpu).runOnModule committedAndSkipped =
        .ok (p', m', report, log) ∧ Appends committedAndSkipped m' report := by
  refine ⟨by decide, ?_⟩
  obtain ⟨⟨p', m', report, log⟩, hrun⟩ :
      ∃ r, (Pass.create DeviceConfig.spmdGpu).runOnModule committedAndSkipped = .ok r := ⟨_, rfl⟩
  exact ⟨p', m', report, log, hrun, runOnModule_appends_fresh (by decide) hrun⟩

end Pass

end KernelLaunch
