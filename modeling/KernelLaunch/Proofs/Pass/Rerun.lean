import KernelLaunch.Proofs.Pass.Skips
/-!
# Running the pass twice

A second run over the module a run answered commits nothing and answers the module as it is
(`runOnModule_rerun_commits_nothing`), whether it starts from the pass the first run started from
or from the pass the first run answered, whose cache holds the layouts it recorded; when the first
module's functions have pairwise different names, it skips the kernels the first run skipped, in
order. The statement is conditional on the second run not faulting: the second run can meet word
arithmetic the first did not, such as the output prelude of a body that now reaches a printing
helper the first run added.

Everything the first run appends is derived from a kernel or a helper, or is a declaration
(`Function.Generated`), so the second run visits only kernels of the first module whose default
launcher is still missing (`kernelsToProcess_rerun`). `Rerunnable` is what the first run keeps
true for the second: every kernel visited has launchers, or was skipped against a module the final
one extends, with the layout the pass started with. `processKernel_skip_persists` turns each such
skip into a skip of the second run (`runOnModule_of_rerunnable`).
-/

namespace KernelLaunch

open CallGraph

namespace LayoutCache

theorem get?_insert_of_ne (c : LayoutCache) {k x : String} (hx : k ≠ x) (l : ArgBufferLayout) :
    (c.insert k l).get? x = c.get? x := by
  unfold insert get?
  congr 1
  induction c.layouts with
  | nil => simp [insertSorted, hx]
  | cons q rest ih =>
      obtain ⟨k', v'⟩ := q
      unfold insertSorted
      split
      · simp [hx]
      · split
        · rename_i hk
          subst hk
          simp [hx]
        · simp only [List.find?_cons]
          split
          · rfl
          · exact ih

/-- Recording a layout stores it under its kernel. -/
theorem record_eq_ok {c c' : LayoutCache} {l : ArgBufferLayout} {log : Log} (h : c.record l = .ok (c', log)) :
    c' = c.insert l.kernel l := by
  unfold record at h
  simp only [bind, Except.bind, pure, Except.pure] at h
  split at h
  · cases h
  · simp only [Except.ok.injEq, Prod.mk.injEq] at h
    exact h.1.symm

end LayoutCache

/-- A launcher is marked as derived from its kernel. -/
theorem LauncherGen.derivedFrom_generate {gen : LauncherGen} {v : Variant} {f : Function} {log : Log}
    (h : gen.generate v = .ok (f, log)) : f.attrs.derivedFrom = some gen.kernel.name := by
  unfold LauncherGen.generate at h
  simp only [bind, Except.bind, pure, Except.pure] at h
  -- every way out but the last is a fault
  repeat' split at h
  all_goals first
    | simp only [Except.ok.injEq, Prod.mk.injEq] at h
      obtain ⟨rfl, -⟩ := h
      rfl
    | cases h

namespace Pass

variable {p : Pass} {m : Module} {g : CallGraph} {name : String}

/-- Committing changes the layout recorded for a kernel only by recording the emission's layout. -/
theorem get?_layouts_commit (p : Pass) (m : Module) (e : Emission) (x : String) :
    (p.commit m e).1.layouts.get? x = p.layouts.get? x ∨ ∃ l, e.set.layout = some l ∧ l.kernel = x := by
  unfold commit
  rcases hl : e.set.layout with _ | l
  · exact .inl rfl
  by_cases hx : l.kernel = x
  · exact .inr ⟨l, rfl, hx⟩
  left
  rcases hr : p.layouts.record l with d | ⟨c', log⟩
  · simp [hr]
  · simp [hr, LayoutCache.record_eq_ok hr, LayoutCache.get?_insert_of_ne _ hx]

/-- An emission's layout is recorded under the kernel's name, and its default launcher is among its
functions. -/
theorem processKernel_layout_default {log : Log} {e : Emission} (h : p.processKernel m g name = .ok (log, .ok e)) :
    (∀ l, e.set.layout = some l → l.kernel = name) ∧
      ∃ f ∈ e.functions, f.name = LauncherKind.default.symbol name := by
  obtain ⟨kernel, sg, fastSize, layout, bodyLog, bodies, launchers, notes, hk, -, -, -, -, hl, -, he, -, hfun⟩ :=
    processKernel_eq_ok h
  have hkname : kernel.name = name := (Module.get?_eq_some hk).1
  have hset := (LauncherGen.emitLaunchers_eq_ok he).2
  refine ⟨fun l hsl => ?_, ?_⟩
  · rw [hset] at hsl
    rw [← hkname]
    exact kernel_compute ((layoutFor_eq_ok hl).2 l hsl)
  · -- the default launcher is the first launcher made
    have hnames := LauncherGen.map_name_emitLaunchers he
    cases launchers with
    | nil => simp [LauncherGen.variants] at hnames
    | cons f fs =>
        simp only [LauncherGen.variants, List.cons_append, List.map_cons, List.cons.injEq] at hnames
        refine ⟨f, by simp [hfun], ?_⟩
        rw [hnames.1, hkname]

/-- Everything a kernel's emission adds is marked as derived from a kernel or a helper, so no
function it adds is a kernel to process. -/
theorem derivedFrom_processKernel {log : Log} {e : Emission} (hc : p.outputs.Named)
    (h : p.processKernel m g name = .ok (log, .ok e)) :
    ∀ f ∈ e.functions, f.attrs.derivedFrom.isSome := by
  obtain ⟨kernel, sg, fastSize, layout, bodyLog, bodies, launchers, notes, -, -, -, -, -, -, hd, he, -, hfun⟩ :=
    processKernel_eq_ok h
  intro f hf
  rw [hfun, List.mem_append] at hf
  rcases hf with hf | hf
  · rcases mem_deriveBodies _ hc hd f hf with hf | ⟨-, -, -, hder⟩ | ⟨-, x, -, hder, -⟩
    · exact absurd hf List.not_mem_nil
    · simp [hder]
    · simp [hder]
  · obtain ⟨v, -, log, hgen⟩ := exists_mem_of_forall₂ (LauncherGen.emitLaunchers_eq_ok he).1.flip f hf
    simp [LauncherGen.derivedFrom_generate hgen]

end Pass

/-- A function a run appends: one marked as derived from a kernel or a helper, or a declaration. -/
def Function.Generated (f : Function) : Prop := f.attrs.derivedFrom.isSome = true ∨ f.isDeclaration = true

/-- No generated function is a kernel to process. -/
theorem Function.isKernelToProcess_of_generated {f : Function} (hf : f.Generated) (m : Module) :
    f.isKernelToProcess m = false := by
  unfold Function.isKernelToProcess
  rcases hf with hf | hf
  · obtain ⟨d, hd⟩ := Option.isSome_iff_exists.mp hf
    simp [hd]
  · simp [hf]

namespace Pass

/-- A skip of the kernel `x` against a module the module `m` extends, by a pass on the device of
`p`, with named clones and the layout `p` recorded for `x`. -/
def SkippedBefore (p : Pass) (m : Module) (x : String) : Prop :=
  ∃ (p' : Pass) (m' : Module) (log : Log) (s : KernelSkip), p'.processKernel m' (build m') x = .ok (log, .error s) ∧
    p'.cfg = p.cfg ∧ p'.context = p.context ∧ p'.outputs.Named ∧ p'.layouts.get? x = p.layouts.get? x ∧
    m'.functions <+: m.functions ∧ (m'.get? x).isSome

theorem SkippedBefore.mono {p : Pass} {m m' : Module} {x : String} (h : SkippedBefore p m x)
    (hpre : m.functions <+: m'.functions) : SkippedBefore p m' x := by
  obtain ⟨p₀, m₀, log, s, hskip, hcfg, hctx, hn, hl, hm, hx⟩ := h
  exact ⟨p₀, m₀, log, s, hskip, hcfg, hctx, hn, hl, hm.trans hpre, hx⟩

/-- What a run from the pass `p` keeps true of the state it threads through the kernels `kernels` of
the module `m₀`, `rest` being those still to visit: the pass stays on the device of `p` with named
clones; the module is `m₀` with generated functions appended; the layout recorded for a kernel
changes only when the kernel gets launchers; every kernel visited has launchers or was skipped
against a module this one extends, under the layout `p` recorded; and the report lists every kernel
visited, the skipped ones in order, with launchers in the module for each launcher set. -/
structure Rerunnable (p : Pass) (m₀ : Module) (kernels rest : List String)
    (st : Pass × Module × PassReport × Log) : Prop where
  cfg : st.1.cfg = p.cfg
  context : st.1.context = p.context
  named : st.1.outputs.Named
  grows : ∃ fs, st.2.1.functions = m₀.functions ++ fs ∧ ∀ f ∈ fs, f.Generated
  layouts : ∀ x, st.1.layouts.get? x ≠ p.layouts.get? x → st.2.1.contains (LauncherKind.default.symbol x)
  settled : ∀ x ∈ kernels, x ∉ rest →
    st.2.1.contains (LauncherKind.default.symbol x) ∨ SkippedBefore p st.2.1 x
  visited : ∃ done, kernels = done ++ rest ∧ List.Sublist (st.2.2.1.skipped.map (·.kernel)) done ∧
    ∀ x ∈ done, x ∈ st.2.2.1.launchers.map (·.kernel) ∨ x ∈ st.2.2.1.skipped.map (·.kernel)
  launched : ∀ S ∈ st.2.2.1.launchers, st.2.1.contains (LauncherKind.default.symbol S.kernel)

/-- Visiting the next kernel keeps what a run keeps true for the re-run. -/
theorem Rerunnable.visit {p : Pass} {m₀ : Module} {kernels rest : List String} {name : String}
    {st st' : Pass × Module × PassReport × Log} (hfound : ∀ x ∈ kernels, (m₀.get? x).isSome)
    (hv : Rerunnable p m₀ kernels (name :: rest) st) (h : visitKernel st name = .ok st') :
    Rerunnable p m₀ kernels rest st' := by
  obtain ⟨p', m', report, log⟩ := st
  obtain ⟨p'', m'', report', log'⟩ := st'
  obtain ⟨fs, hfs, hgen⟩ := hv.grows
  obtain ⟨done, hdone, hsub, hall⟩ := hv.visited
  -- a kernel visited is one of the module's, found in every module that extends it
  have hname : name ∈ kernels := hdone ▸ List.mem_append_right _ List.mem_cons_self
  have hfound' : (m'.get? name).isSome := by
    obtain ⟨f, hf⟩ := Option.isSome_iff_exists.mp (hfound name hname)
    rw [Module.get?_mono ⟨fs, hfs.symm⟩ hf]
    rfl
  rcases visitKernel_eq_ok h with ⟨notes, e, hpk, rfl, rfl, rfl⟩ | ⟨notes, s, hpk, hp, hm, hr⟩
  · -- the kernel is committed: its functions are appended, its default launcher among them
    obtain ⟨decl, hdecl, hm, hout, hcfg, hctx⟩ := commit_eq p' m' e
    have hpre : m'.functions <+: (p'.commit m' e).2.1.functions := by
      rw [hm]
      exact ⟨decl ++ e.functions, by simp⟩
    obtain ⟨hlayout, f, hf, hfn⟩ := processKernel_layout_default hpk
    have hdefault : (p'.commit m' e).2.1.contains (LauncherKind.default.symbol name) := by
      rw [Module.contains_iff, hm, ← hfn]
      exact List.mem_map_of_mem (List.mem_append_right _ hf)
    have hkernel : e.set.kernel = name := (processKernel_fresh hv.named hpk).2.1
    refine ⟨hcfg.trans hv.cfg, hctx.trans hv.context, hout ▸ (processKernel_fresh hv.named hpk).1, ?_, ?_, ?_, ?_, ?_⟩
    · -- what is appended is the local-id declaration and functions derived from a kernel or a helper
      refine ⟨fs ++ decl ++ e.functions, by rw [hm, hfs]; simp, fun f hf => ?_⟩
      simp only [List.mem_append] at hf
      rcases hf with (hf | hf) | hf
      · exact hgen f hf
      · rcases hdecl with rfl | ⟨rfl, -⟩
        · exact absurd hf List.not_mem_nil
        · rw [List.mem_singleton.mp hf]
          exact .inr rfl
      · exact .inl (derivedFrom_processKernel hv.named hpk f hf)
    · intro x hx
      rcases get?_layouts_commit p' m' e x with heq | ⟨l, hl, rfl⟩
      · exact Module.contains_mono hpre (hv.layouts x (heq ▸ hx))
      · rw [hlayout l hl]
        exact hdefault
    · intro x hx hrest
      by_cases hxn : x = name
      · exact .inl (hxn ▸ hdefault)
      · rcases hv.settled x hx (by simp [hxn, hrest]) with hc | hsk
        · exact .inl (Module.contains_mono hpre hc)
        · exact .inr (hsk.mono hpre)
    · refine ⟨done ++ [name], by simp [hdone], hsub.trans (List.sublist_append_left _ _), fun x hx => ?_⟩
      rcases List.mem_append.mp hx with hx | hx
      · rcases hall x hx with hl | hs
        · exact .inl (by simp only [List.map_append]; exact List.mem_append_left _ hl)
        · exact .inr hs
      · rw [List.mem_singleton.mp hx]
        exact .inl (by simp [hkernel])
    · intro S hS
      rcases List.mem_append.mp hS with hS | hS
      · exact Module.contains_mono hpre (hv.launched S hS)
      · rw [List.mem_singleton.mp hS, hkernel]
        exact hdefault
  · -- the kernel is skipped: its skip is recorded, unless its layout changed, which only launchers do
    subst p'' m'' report'
    have hs : s.kernel = name := kernel_of_processKernel_skip hpk
    refine ⟨hv.cfg, hv.context, hv.named, ⟨fs, hfs, hgen⟩, hv.layouts, ?_, ?_, hv.launched⟩
    · intro x hx hrest
      by_cases hxn : x = name
      · subst hxn
        by_cases hl : p'.layouts.get? x = p.layouts.get? x
        · exact .inr ⟨p', m', notes, s, hpk, hv.cfg, hv.context, hv.named, hl, List.prefix_refl _, hfound'⟩
        · exact .inl (hv.layouts x hl)
      · exact hv.settled x hx (by simp [hxn, hrest])
    · refine ⟨done ++ [name], by simp [hdone], ?_, fun x hx => ?_⟩
      · simp only [List.map_append, List.map_singleton, hs]
        exact hsub.append (List.Sublist.refl _)
      · rcases List.mem_append.mp hx with hx | hx
        · rcases hall x hx with hl | hs'
          · exact .inl hl
          · exact .inr (by simp only [List.map_append]; exact List.mem_append_left _ hs')
        · rw [List.mem_singleton.mp hx]
          exact .inr (by simp [hs])

/-- The kernels a second run visits: kernels of the first module, with no default launcher in the
module the first run answered. -/
theorem kernelsToProcess_rerun {m m₁ : Module} {fs : List Function} (hfs : m₁.functions = m.functions ++ fs)
    (hgen : ∀ f ∈ fs, f.Generated) :
    (m₁.functions.filter (·.isKernelToProcess m₁)).map (·.name) =
      ((m.functions.filter (·.isKernelToProcess m)).map (·.name)).filter
        fun x => !m₁.contains (LauncherKind.default.symbol x) := by
  have hpre : m.functions <+: m₁.functions := ⟨fs, hfs.symm⟩
  -- appended functions are never kernels to process
  have hnone : fs.filter (·.isKernelToProcess m₁) = [] :=
    List.filter_eq_nil_iff.mpr fun f hf => by simp [Function.isKernelToProcess_of_generated (hgen f hf)]
  rw [hfs, List.filter_append, hnone, List.append_nil, List.filter_map, List.filter_filter]
  congr 1
  refine List.filter_congr fun f _ => ?_
  -- a default launcher in the smaller module is one in the larger
  unfold Function.isKernelToProcess
  cases hm : m.contains (LauncherKind.default.symbol f.name) <;>
    cases hm₁ : m₁.contains (LauncherKind.default.symbol f.name)
  · simp [hm₁]
  · simp [hm₁]
  · rw [Module.contains_mono hpre hm] at hm₁
    cases hm₁
  · simp

/-- A sublist of a list without repeats holds exactly the entries it has in the order of the list. -/
theorem sublist_eq_filter {α : Type} {S L : List α} (hsub : List.Sublist S L) (hnd : L.Nodup) (q : α → Bool)
    (hq : ∀ x ∈ L, x ∈ S ↔ q x = true) : S = L.filter q := by
  induction hsub with
  | slnil => rfl
  | @cons S L a hsub ih =>
      obtain ⟨ha, hnd⟩ := List.nodup_cons.mp hnd
      have hqa : q a = false := by
        cases hqa : q a
        · rfl
        · exact absurd (hsub.subset ((hq a List.mem_cons_self).mpr hqa)) ha
      rw [List.filter_cons_of_neg (by simp [hqa])]
      exact ih hnd fun x hx => hq x (List.mem_cons_of_mem _ hx)
  | @cons_cons S L a hsub ih =>
      obtain ⟨ha, hnd⟩ := List.nodup_cons.mp hnd
      rw [List.filter_cons_of_pos ((hq a List.mem_cons_self).mp List.mem_cons_self)]
      refine congrArg _ (ih hnd fun x hx => ?_)
      have hxa : x ≠ a := fun h => ha (h ▸ hx)
      rw [← hq x (List.mem_cons_of_mem _ hx), List.mem_cons]
      simp [hxa]

/-- A second run over the module a run from `p` answered, from a pass on the device of `p` that holds
the layouts `p` recorded for every kernel without a default launcher, commits no kernel, when it does
not fault: every kernel it visits was skipped by the first run, and is skipped again. It answers the
module as it is and visits the kernels still to process, each skipped. -/
theorem runOnModule_of_rerunnable {p p₁ p₂ p₂' : Pass} {m m₁ m₁' m₂ : Module} {r₁ r₂ : PassReport}
    {log₁ log₂ : Log}
    (hv : Rerunnable p m ((m.functions.filter (·.isKernelToProcess m)).map (·.name)) [] (p₁, m₁', r₁, log₁))
    (hfun : m₁.functions = m₁'.functions) (hcfg : p₂.cfg = p.cfg) (hctx : p₂.context = p.context)
    (hlay : ∀ x, m₁.contains (LauncherKind.default.symbol x) = false → p₂.layouts.get? x = p.layouts.get? x)
    (h₂ : p₂.runOnModule m₁ = .ok (p₂', m₂, r₂, log₂)) :
    p₂' = { p₂ with outputs := {} } ∧ m₂ = m₁ ∧ r₂.launchers = [] ∧
      r₂.skipped.map (·.kernel) = (m₁.functions.filter (·.isKernelToProcess m₁)).map (·.name) := by
  obtain ⟨fs, hfs, hgen⟩ := hv.grows
  have hcontains : ∀ x, m₁.contains x = m₁'.contains x := fun x => by
    simp only [Module.contains, Module.get?, hfun]
  -- every kernel the second run visits has no default launcher, so the first run skipped it
  have hfresh : ∀ x ∈ (m₁.functions.filter (·.isKernelToProcess m₁)).map (·.name),
      x ∈ (m.functions.filter (·.isKernelToProcess m)).map (·.name) ∧
        m₁.contains (LauncherKind.default.symbol x) = false := by
    intro x hx
    rw [kernelsToProcess_rerun (hfun.trans hfs) hgen, List.mem_filter] at hx
    exact ⟨hx.1, by simpa using hx.2⟩
  have hskipped : ∀ x ∈ (m₁.functions.filter (·.isKernelToProcess m₁)).map (·.name), SkippedBefore p m₁' x := by
    intro x hx
    obtain ⟨hx, hnot⟩ := hfresh x hx
    rcases hv.settled x hx List.not_mem_nil with hc | hs
    · rw [← hcontains, hnot] at hc
      cases hc
    · exact hs
  unfold runOnModule at h₂
  obtain ⟨⟨p₃, m₃, r₃, log₃⟩, hfold, hrest⟩ := except_bind_eq_ok.mp h₂
  -- the second run's state stays as it started: each visit is a skip
  obtain ⟨hp₃, hm₃, hl₃, hs₃⟩ := @foldlM_visitKernel
    (fun rest st => st.1 = { p₂ with outputs := {} } ∧ st.2.1 = m₁ ∧ st.2.2.1.launchers = [] ∧
      st.2.2.1.skipped.map (·.kernel) ++ rest = (m₁.functions.filter (·.isKernelToProcess m₁)).map (·.name))
    (by
      rintro x rest ⟨p', m', r, log'⟩ ⟨p'', m'', r', log''⟩ ⟨hp, hm, hl, hs⟩ hvisit
      simp only at hp hm hl hs
      subst p' m'
      have hx : x ∈ (m₁.functions.filter (·.isKernelToProcess m₁)).map (·.name) :=
        hs ▸ List.mem_append_right _ List.mem_cons_self
      rcases visitKernel_eq_ok hvisit with ⟨notes, e, hpk, -⟩ | ⟨notes, sk, hpk, rfl, rfl, rfl⟩
      · obtain ⟨p₀, m₀, log₀, s₀, hskip, hcfg₀, hctx₀, hn₀, hl₀, hpre₀, hf₀⟩ := hskipped x hx
        exact absurd hpk (processKernel_skip_persists hskip (hcfg.trans hcfg₀.symm) (hctx.trans hctx₀.symm)
          ((hlay x (hfresh x hx).2).trans hl₀.symm) hn₀ rfl (hfun ▸ hpre₀) hf₀)
      · refine ⟨rfl, rfl, hl, ?_⟩
        rw [← hs]
        simp [kernel_of_processKernel_skip hpk])
    _ _ _ ⟨rfl, rfl, rfl, by simp⟩ hfold
  simp only at hp₃ hm₃ hl₃ hs₃
  subst p₃ m₃
  dsimp only at hrest
  split at hrest
  · rename_i hchanged
    simp [PassReport.changed, hl₃] at hchanged
  · simp only [except_pure_eq_ok, Prod.mk.injEq] at hrest
    obtain ⟨rfl, rfl, rfl, -⟩ := hrest
    exact ⟨rfl, rfl, hl₃, by simpa using hs₃⟩

/-- Running the pass again over the module a run answered commits no kernel and answers that module
as it is, with nothing recorded, whenever the second run does not fault, both from the pass the first
run started from and from the pass it answered, whose cache holds the layouts the first run
recorded. When the functions of the first module have pairwise different names, the second run
skips exactly the kernels the first run skipped, in the same order. -/
theorem runOnModule_rerun_commits_nothing {p p₁ p₂ p₂' : Pass} {m m₁ m₂ : Module} {r₁ r₂ : PassReport}
    {log₁ log₂ : Log} (h₁ : p.runOnModule m = .ok (p₁, m₁, r₁, log₁)) (hp₂ : p₂ = p ∨ p₂ = p₁)
    (h₂ : p₂.runOnModule m₁ = .ok (p₂', m₂, r₂, log₂)) :
    p₂' = { p₂ with outputs := {} } ∧ m₂ = m₁ ∧ r₂.launchers = [] ∧
      ((m.functions.map (·.name)).Nodup → r₂.skipped.map (·.kernel) = r₁.skipped.map (·.kernel)) := by
  obtain ⟨log₀, m₁', log₁', hfold, hfun⟩ := runOnModule_eq_ok h₁
  have hfound : ∀ x ∈ (m.functions.filter (·.isKernelToProcess m)).map (·.name), (m.get? x).isSome := by
    intro x hx
    obtain ⟨f, hf, rfl⟩ := List.mem_map.mp hx
    exact Module.contains_iff.mpr (List.mem_map_of_mem (List.mem_filter.mp hf).1)
  -- what the first run leaves for the second
  have hv : Rerunnable p m ((m.functions.filter (·.isKernelToProcess m)).map (·.name)) [] (p₁, m₁', r₁, log₁') :=
    @foldlM_visitKernel (Rerunnable p m ((m.functions.filter (·.isKernelToProcess m)).map (·.name)))
      (fun _ _ _ _ hI h => hI.visit hfound h) _ _ _
      ⟨rfl, rfl, OutputClones.Named.empty, ⟨[], by simp, by simp⟩, fun _ hx => absurd rfl hx,
        fun _ hx hrest => absurd hx hrest, ⟨[], by simp, by simp, by simp⟩, by simp⟩ hfold
  have hcontains : ∀ x, m₁.contains x = m₁'.contains x := fun x => by
    simp only [Module.contains, Module.get?, hfun]
  have hsame : p₂.cfg = p.cfg ∧ p₂.context = p.context ∧
      ∀ x, m₁.contains (LauncherKind.default.symbol x) = false → p₂.layouts.get? x = p.layouts.get? x := by
    rcases hp₂ with rfl | rfl
    · exact ⟨rfl, rfl, fun _ _ => rfl⟩
    · refine ⟨hv.cfg, hv.context, fun x hx => ?_⟩
      by_contra hne
      have hc := hv.layouts x hne
      rw [← hcontains, hx] at hc
      cases hc
  obtain ⟨hp₂', hm₂, hl₂, hs₂⟩ := runOnModule_of_rerunnable hv hfun hsame.1 hsame.2.1 hsame.2.2 h₂
  refine ⟨hp₂', hm₂, hl₂, fun hnames => ?_⟩
  -- both runs' skipped kernels are the first run's kernels with no default launcher, in order
  obtain ⟨fs, hfs, hgen⟩ := hv.grows
  obtain ⟨done, hdone, hsub, hall⟩ := hv.visited
  rw [List.append_nil] at hdone
  have hkernels : ((m.functions.filter (·.isKernelToProcess m)).map (·.name)).Nodup :=
    hnames.sublist (List.filter_sublist.map _)
  obtain ⟨m₁'', log₁'', added, hvis, hfun'⟩ := runOnModule_visited hnames h₁
  have hadded : m₁.functions = m.functions ++ added.flatten := by
    have hm := hvis.module_eq
    simp only at hm
    rw [hfun', hm]
  rw [hs₂, kernelsToProcess_rerun (hfun.trans hfs) hgen]
  refine (sublist_eq_filter (hdone ▸ hsub) hkernels _ fun x hx => ⟨fun hxs => ?_, fun hfree => ?_⟩).symm
  · -- a skipped kernel's default launcher is neither in the module nor made by another kernel
    obtain ⟨sk, hsk, rfl⟩ := List.mem_map.mp hxs
    obtain ⟨f, hf, hfn⟩ := List.mem_map.mp hx
    have hnot : m.contains (LauncherKind.default.symbol sk.kernel) = false := by
      have htp := (List.mem_filter.mp hf).2
      unfold Function.isKernelToProcess at htp
      simp only [Bool.and_eq_true, Bool.not_eq_eq_eq_not, Bool.not_true] at htp
      rw [← hfn]
      exact htp.2
    simp only [Bool.not_eq_eq_eq_not, Bool.not_true]
    cases hc : m₁.contains (LauncherKind.default.symbol sk.kernel)
    · rfl
    · rw [Module.contains_iff, hadded, List.map_append, List.mem_append] at hc
      rcases hc with hc | hc
      · rw [← Module.contains_iff, hnot] at hc
        cases hc
      · obtain ⟨g, hg, hgn⟩ := List.mem_map.mp hc
        exact absurd (hgn ▸ LauncherKind.generatedFor_symbol .default sk.kernel)
          (hvis.skipped_absent sk hsk g hg)
  · -- a kernel with launchers has its default launcher in the module
    rcases hall x (hdone ▸ hx) with hl | hs
    · obtain ⟨S, hS, rfl⟩ := List.mem_map.mp hl
      have hc := hv.launched S hS
      rw [← hcontains] at hc
      simp [hc] at hfree
    · exact hs

/-- A second run over the module a first run made of `committedAndSkipped` commits nothing. -/
theorem runOnModule_rerun_committedAndSkipped :
    ∃ p₁ m₁ r₁ log₁ p₂' m₂ r₂ log₂,
      (Pass.create DeviceConfig.spmdGpu).runOnModule committedAndSkipped = .ok (p₁, m₁, r₁, log₁) ∧
      p₁.runOnModule m₁ = .ok (p₂', m₂, r₂, log₂) ∧ m₂ = m₁ ∧ r₂.launchers = [] ∧
        r₂.skipped.map (·.kernel) = r₁.skipped.map (·.kernel) := by
  refine ⟨_, _, _, _, _, _, _, _, rfl, rfl, ?_⟩
  obtain ⟨-, hm, hl, hs⟩ := @runOnModule_rerun_commits_nothing (Pass.create DeviceConfig.spmdGpu) _ _ _
    committedAndSkipped _ _ _ _ _ _ rfl (.inr rfl) rfl
  exact ⟨hm, hl, hs (by decide)⟩

end Pass

end KernelLaunch

