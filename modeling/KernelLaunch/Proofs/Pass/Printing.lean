import KernelLaunch.Proofs.Pass.Routing
import KernelLaunch.Proofs.Pass.Skips

/-!
# Committed kernels print only into the buffer

On a device that prints into a buffer, a run over a module whose calls stay in the module and
whose kernels do not call themselves leaves no formatted output for the host in any function a
committed launcher set's bodies reach, and none of those is a function of the original module that
prints: every call of a printing helper goes to the helper's clone, under a name the module has
once (`Pass.runOnModule_routes_output`).

The run keeps `Pass.Routed` true of the names of the bodies and clones it committed so far, kernel
after kernel (`Pass.Routed.visit`): each such function routes its output and calls only routed
names or functions of the original module that print nothing (`Module.Quiet`). What a body's
routing calls is read in the module the kernel was visited in; `Module.transGen_calls_of_closed`
carries a call path back to the original module, where the kernel's own name is excluded because
no kernel calls itself. The closure of the routed names under calls (`Pass.Routed.reach`) then
gives the result.
-/

namespace KernelLaunch

open Relation OutputClones

namespace Module

/-- A function of `m` that prints nothing, directly or through what it calls. -/
def Quiet (m : Module) (x : String) : Prop := x ∈ m.functions.map (·.name) ∧ ¬ m.Prints x

theorem Prints.mem_names {m : Module} {x : String} (h : m.Prints x) : x ∈ m.functions.map (·.name) := by
  obtain ⟨f, hf, -, hpath⟩ := h
  rcases hpath.cases_head with rfl | ⟨z, ⟨g, hg, rfl, -⟩, -⟩
  · exact List.mem_map_of_mem hf
  · exact List.mem_map_of_mem hg

theorem Prints.mono {m m' : Module} (hsub : m.functions ⊆ m'.functions) {x : String} (h : m.Prints x) :
    m'.Prints x := by
  obtain ⟨f, hf, hp, hpath⟩ := h
  exact ⟨f, hsub hf, hp, ReflTransGen.mono (fun _ _ => Calls.mono hsub) _ _ hpath⟩

/-- A name that calls a printing name prints. -/
theorem Prints.head {m : Module} {x y : String} (hxy : m.Calls x y) (h : m.Prints y) : m.Prints x := by
  obtain ⟨f, hf, hp, hpath⟩ := h
  exact ⟨f, hf, hp, .head hxy hpath⟩

/-- A function that none of its callees reaches back does not call itself. -/
theorem not_transGen_of_callees {m : Module} (hnd : (m.functions.map (·.name)).Nodup) {f : Function}
    (hf : f ∈ m.functions) (h : ∀ y ∈ f.callees, f.name ∉ (CallGraph.build m).reachableFrom y) :
    ¬ TransGen m.Calls f.name f.name := by
  intro hcyc
  obtain ⟨y, ⟨g, hg, hgname, hy⟩, hpath⟩ := TransGen.head'_iff.mp hcyc
  obtain rfl : g = f := List.inj_on_of_nodup_map hnd hg hf hgname
  exact h y hy (CallGraph.mem_reachableFrom_build.mpr ⟨.inr ⟨g.name, g, hg, rfl, hy⟩, hpath⟩)

section Closed

/-! The module `m` extends `m₀`, whose calls stay among its own functions. -/

variable {m₀ m : Module}

/-- A function of `m₀` calls in `m` what it calls in `m₀`, and that is a function of `m₀`. -/
theorem calls_of_closed (hclosed : ∀ f ∈ m₀.functions, ∀ y ∈ f.callees, m₀.contains y)
    (hsub : m₀.functions ⊆ m.functions) (hnd : (m.functions.map (·.name)).Nodup) {a b : String}
    (ha : a ∈ m₀.functions.map (·.name)) (h : m.Calls a b) :
    m₀.Calls a b ∧ b ∈ m₀.functions.map (·.name) := by
  obtain ⟨f, hf, rfl, hb⟩ := h
  obtain ⟨g, hg, hname⟩ := List.mem_map.mp ha
  -- the name is taken once in `m`, by the function of `m₀`
  obtain rfl : g = f := List.inj_on_of_nodup_map hnd (hsub hg) hf hname
  exact ⟨⟨g, hg, rfl, hb⟩, contains_iff.mp (hclosed g hg b hb)⟩

/-- A call path in `m` from a function of `m₀` is a call path in `m₀`. -/
theorem transGen_calls_of_closed (hclosed : ∀ f ∈ m₀.functions, ∀ y ∈ f.callees, m₀.contains y)
    (hsub : m₀.functions ⊆ m.functions) (hnd : (m.functions.map (·.name)).Nodup) {a b : String}
    (ha : a ∈ m₀.functions.map (·.name)) (h : TransGen m.Calls a b) :
    TransGen m₀.Calls a b ∧ b ∈ m₀.functions.map (·.name) := by
  induction h with
  | single hab => exact (calls_of_closed hclosed hsub hnd ha hab).imp .single id
  | tail _ hbc ih =>
      obtain ⟨hab, hb⟩ := ih
      obtain ⟨hbc', hc⟩ := calls_of_closed hclosed hsub hnd hb hbc
      exact ⟨hab.tail hbc', hc⟩

/-- What a quiet function calls is quiet. -/
theorem Quiet.calls (hclosed : ∀ f ∈ m₀.functions, ∀ y ∈ f.callees, m₀.contains y) {z w : String}
    (hz : m₀.Quiet z) (h : m₀.Calls z w) : m₀.Quiet w := by
  obtain ⟨f, hf, rfl, hw⟩ := h
  exact ⟨contains_iff.mp (hclosed f hf w hw), fun hp => hz.2 (hp.head ⟨f, hf, rfl, hw⟩)⟩

/-- The function of a quiet name keeps no formatted output for the host. -/
theorem Quiet.hostPrintf (hsub : m₀.functions ⊆ m.functions) (hnd : (m.functions.map (·.name)).Nodup)
    {f : Function} (hf : f ∈ m.functions) (hq : m₀.Quiet f.name) : f.contains Inst.isHostPrintf = false := by
  obtain ⟨g, hg, hname⟩ := List.mem_map.mp hq.1
  obtain rfl : g = f := List.inj_on_of_nodup_map hnd (hsub hg) hf hname
  refine Function.contains_eq_false.mpr fun i hi => ?_
  cases hh : i.isHostPrintf with
  | false => rfl
  | true => exact absurd ⟨g, hg, List.any_eq_true.mpr ⟨i, hi, Inst.isPrintf_of_isHostPrintf hh⟩, .refl⟩ hq.2

end Closed

end Module

namespace Pass

/-- What a run keeps true of `routed`, the names of the bodies and clones it committed so far, over
the module `m₀` it started from: each is a function of the current module, new to `m₀`, that keeps
no formatted output for the host and calls only routed names or functions of `m₀` that print
nothing; every clone the module holds and every helper the cache holds has its clone routed; and
every committed set's bodies are routed. -/
structure Routed (m₀ : Module) (routed : List String) (st : Pass × Module × PassReport × Log) : Prop where
  routes : ∀ y ∈ routed, ∃ f ∈ st.2.1.functions, f.name = y ∧ f.contains Inst.isHostPrintf = false ∧
    ∀ z ∈ f.callees, z ∈ routed ∨ m₀.Quiet z
  fresh : ∀ y ∈ routed, y ∉ m₀.functions.map (·.name)
  clones : ∀ x, ClonedBefore st.2.1 x → cloneName x ∈ routed
  cached : ∀ x, st.1.outputs.contains x → ClonedBefore st.2.1 x
  bodies : ∀ S ∈ st.2.2.1.launchers, S.body ∈ routed ∧ ∀ b ∈ S.fastBody, b ∈ routed

variable {m₀ : Module}

/-- The module a run has extended so far holds every function of the module it started from. -/
theorem Visited.functions_subset {rest : List String} {added : List (List Function)}
    {st : Pass × Module × PassReport × Log} (hv : Visited m₀ rest added st) : m₀.functions ⊆ st.2.1.functions := by
  rw [hv.module_eq]
  exact List.subset_append_left _ _

/-- Before the first visit nothing is routed: the module derives nothing and the cache is empty. -/
theorem routed_start (hfresh : ∀ f ∈ m₀.functions, f.attrs.derivedFrom = none) (p : Pass) (log : Log) :
    Routed m₀ [] ({ p with outputs := {} }, m₀, {}, log) where
  routes := by simp
  fresh := by simp
  clones x := fun ⟨f, hget, hfrom⟩ => by
    rw [hfresh f (Module.get?_eq_some hget).2] at hfrom
    cases hfrom
  cached x hx := by simp [OutputClones.contains_iff] at hx
  bodies := by simp

/-- Visiting a kernel of `m₀` that does not call itself keeps `Routed`, with the names of the bodies
and clones it commits added. -/
theorem Routed.visit (hclosed : ∀ f ∈ m₀.functions, ∀ y ∈ f.callees, m₀.contains y) {name : String}
    (hkernel : name ∈ m₀.functions.map (·.name)) (hcycle : ¬ TransGen m₀.Calls name name)
    {rest : List String} {added added' : List (List Function)} {routed : List String}
    {st st' : Pass × Module × PassReport × Log} (hprintf : st.1.cfg.deviceSidePrintf = true)
    (hv : Visited m₀ (name :: rest) added st) (hv' : Visited m₀ rest added' st') (hr : Routed m₀ routed st)
    (h : visitKernel st name = .ok st') : ∃ routed', Routed m₀ routed' st' := by
  obtain ⟨p, m, report, log⟩ := st
  obtain ⟨p', m', report', log'⟩ := st'
  rcases visitKernel_eq_ok h with ⟨notes, e, hpk, rfl, rfl, rfl⟩ | ⟨notes, s, hpk, rfl, rfl, rfl⟩
  · obtain ⟨bodies, launchers, hfun, hroutes, hlaunch, hbody, hfast, horigin⟩ :=
      processKernel_routes hv.nodup hprintf hv.named hpk
    obtain ⟨-, -, -, -, hmakes, -⟩ := processKernel_fresh hv.named hpk
    obtain ⟨decl, hdecl, hm, hout, -, -⟩ := commit_eq p m e
    have hsub : m₀.functions ⊆ m.functions := hv.functions_subset
    have hpre : m.functions <+: (p.commit m e).2.1.functions := by
      rw [hm]
      exact ⟨decl ++ e.functions, by simp⟩
    have hbm : ∀ f ∈ bodies, f ∈ (p.commit m e).2.1.functions := fun f hf => by
      rw [hm, hfun]
      simp [hf]
    have hcloned : ∀ x, ClonedBefore m x → ClonedBefore (p.commit m e).2.1 x :=
      fun x ⟨f, hget, hfrom⟩ => ⟨f, Module.get?_mono hpre hget, hfrom⟩
    refine ⟨routed ++ bodies.map (·.name), ⟨?_, ?_, ?_, ?_, ?_⟩⟩
    · intro y hy
      rcases List.mem_append.mp hy with hy | hy
      · obtain ⟨f, hf, hfy, hno, hcalls⟩ := hr.routes y hy
        exact ⟨f, hpre.subset hf, hfy, hno, fun z hz => (hcalls z hz).imp_left (List.mem_append_left _)⟩
      · obtain ⟨f, hf, rfl⟩ := List.mem_map.mp hy
        obtain ⟨hno, hcalls⟩ := hroutes f hf
        refine ⟨f, hbm f hf, rfl, hno, fun z hz => ?_⟩
        rcases hcalls z hz with ⟨hpath, hq⟩ | ⟨x, rfl, hx⟩
        · -- a name the kernel calls is a function of `m₀`, and not the kernel itself
          obtain ⟨hpath₀, hz₀⟩ := Module.transGen_calls_of_closed hclosed hsub hv.nodup hkernel hpath
          rcases hq with hq | rfl
          · exact .inr ⟨hz₀, fun hp => hq (hp.mono hsub)⟩
          · exact absurd hpath₀ hcycle
        · rcases horigin x hx with hx | hx | ⟨g, hg, hname, -⟩
          · exact .inl (List.mem_append_left _ (hr.clones x (hr.cached x hx)))
          · exact .inl (List.mem_append_left _ (hr.clones x hx))
          · exact .inl (List.mem_append_right _ (List.mem_map.mpr ⟨g, hg, hname⟩))
    · intro y hy
      rcases List.mem_append.mp hy with hy | hy
      · exact hr.fresh y hy
      · obtain ⟨f, hf, rfl⟩ := List.mem_map.mp hy
        have hnew := (hmakes f (hfun ▸ List.mem_append_left _ hf)).2
        exact fun h₀ => hnew (List.map_subset _ hsub h₀)
    · rintro x ⟨f, hget, hfrom⟩
      obtain ⟨hname, hf⟩ := Module.get?_eq_some hget
      rw [hm, hfun] at hf
      simp only [List.mem_append] at hf
      rcases hf with ((hf | hf) | hf | hf)
      · exact List.mem_append_left _ (hr.clones x ⟨f, hname ▸ Module.get?_of_mem hv.nodup hf, hfrom⟩)
      · -- the local-id declaration is derived from nothing
        rcases hdecl with rfl | ⟨rfl, -⟩
        · cases hf
        · rw [List.mem_singleton.mp hf] at hfrom
          cases hfrom
      · exact List.mem_append_right _ (List.mem_map.mpr ⟨f, hf, hname⟩)
      · exact absurd (hname ▸ hlaunch f hf) (not_generatedFor_cloneName x name)
    · intro x hx
      rw [hout] at hx
      rcases horigin x hx with hx | hx | ⟨g, hg, hname, hfrom⟩
      · exact hcloned x (hr.cached x hx)
      · exact hcloned x hx
      · exact ⟨g, hname ▸ Module.get?_of_mem hv'.nodup (hbm g hg), hfrom⟩
    · intro S hS
      rcases List.mem_append.mp hS with hS | hS
      · obtain ⟨hb, hfb⟩ := hr.bodies S hS
        exact ⟨List.mem_append_left _ hb, fun b hb' => List.mem_append_left _ (hfb b hb')⟩
      · rw [List.mem_singleton.mp hS]
        exact ⟨List.mem_append_right _ hbody, fun b hb => List.mem_append_right _ (hfast b hb)⟩
  · -- a skipped kernel changes neither the module nor the committed sets
    exact ⟨routed, hr.routes, hr.fresh, hr.clones, hr.cached, hr.bodies⟩

/-- Visiting a kernel keeps the device the pass targets. -/
theorem cfg_visitKernel {st st' : Pass × Module × PassReport × Log} {name : String}
    (h : visitKernel st name = .ok st') : st'.1.cfg = st.1.cfg := by
  obtain ⟨p, m, report, log⟩ := st
  obtain ⟨p', m', report', log'⟩ := st'
  rcases visitKernel_eq_ok h with ⟨notes, e, -, rfl, -, -⟩ | ⟨notes, s, -, rfl, -, -⟩
  · obtain ⟨-, -, -, -, hcfg, -⟩ := commit_eq p m e
    exact hcfg
  · rfl

/-- What a run over `m₀` for the device `cfg` keeps true, with `rest` the kernels still to visit:
they are pairwise different kernels of `m₀` that do not call themselves, the device stays, and
`Visited` and `Routed` hold. -/
def RoutingRun (m₀ : Module) (cfg : DeviceConfig) (rest : List String) (st : Pass × Module × PassReport × Log) :
    Prop :=
  rest.Nodup ∧ (∀ x ∈ rest, x ∈ m₀.functions.map (·.name) ∧ ¬ TransGen m₀.Calls x x) ∧ st.1.cfg = cfg ∧
    ∃ added, Visited m₀ rest added st ∧ ∃ routed, Routed m₀ routed st

/-- On a device that prints into a buffer, visiting the next kernel keeps `RoutingRun`. -/
theorem RoutingRun.visit {cfg : DeviceConfig} (hprintf : cfg.deviceSidePrintf = true)
    (hclosed : ∀ f ∈ m₀.functions, ∀ y ∈ f.callees, m₀.contains y) {name : String} {rest : List String}
    {st st' : Pass × Module × PassReport × Log} (hI : RoutingRun m₀ cfg (name :: rest) st)
    (h : visitKernel st name = .ok st') : RoutingRun m₀ cfg rest st' := by
  obtain ⟨hnd, hks, hcfg, added, hv, routed, hr⟩ := hI
  obtain ⟨added', hv'⟩ := hv.visit hnd h
  obtain ⟨hname, hcycle⟩ := hks name List.mem_cons_self
  exact ⟨(List.nodup_cons.mp hnd).2, fun x hx => hks x (List.mem_cons_of_mem _ hx),
    (cfg_visitKernel h).trans hcfg, added', hv', hr.visit hclosed hname hcycle (hcfg ▸ hprintf) hv hv' h⟩

/-- On a device that prints into a buffer, a run over a module whose names differ, none derived,
whose calls stay in the module and whose kernels do not call themselves keeps `Visited` and
`Routed` to its end. -/
theorem runOnModule_routed {p p' : Pass} {m' : Module} {report : PassReport} {log : Log}
    (hprintf : p.cfg.deviceSidePrintf = true) (hnd : (m₀.functions.map (·.name)).Nodup)
    (hfresh : ∀ f ∈ m₀.functions, f.attrs.derivedFrom = none)
    (hclosed : ∀ f ∈ m₀.functions, ∀ y ∈ f.callees, m₀.contains y)
    (hacyclic : ∀ f ∈ m₀.functions, f.attrs.kernel = true → ¬ TransGen m₀.Calls f.name f.name)
    (h : p.runOnModule m₀ = .ok (p', m', report, log)) :
    ∃ m₁ log₁ added routed, Visited m₀ [] added (p', m₁, report, log₁) ∧
      Routed m₀ routed (p', m₁, report, log₁) ∧ m'.functions = m₁.functions := by
  obtain ⟨log₀, m₁, log₁, hfold, hfun⟩ := runOnModule_eq_ok h
  -- the kernels to process are kernels of `m₀`
  have hkernels : ∀ x ∈ (m₀.functions.filter (·.isKernelToProcess m₀)).map (·.name),
      x ∈ m₀.functions.map (·.name) ∧ ¬ TransGen m₀.Calls x x := by
    intro x hx
    obtain ⟨f, hf, rfl⟩ := List.mem_map.mp hx
    obtain ⟨hf, hk⟩ := List.mem_filter.mp hf
    have hkernel : f.attrs.kernel = true := by
      simp only [Function.isKernelToProcess, Bool.and_eq_true] at hk
      exact hk.1.1.1.1
    exact ⟨List.mem_map_of_mem hf, hacyclic f hf hkernel⟩
  have hstart : RoutingRun m₀ p.cfg _ ({ p with outputs := {} }, m₀, {}, log₀) :=
    ⟨hnd.sublist (List.filter_sublist.map _), hkernels, rfl, [],
      ⟨OutputClones.Named.empty, by simp, hnd, .nil, by simp, by simp, by simp⟩, [], routed_start hfresh p log₀⟩
  obtain ⟨-, -, -, added, hv, routed, hr⟩ :=
    foldlM_visitKernel (I := RoutingRun m₀ p.cfg) (fun _ _ _ _ hI h => RoutingRun.visit hprintf hclosed hI h) _
      hstart hfold
  exact ⟨m₁, log₁, added, routed, hv, hr, hfun⟩

/-- Whatever a routed name reaches is routed, or a function of `m₀` that prints nothing. -/
theorem Routed.reach (hclosed : ∀ f ∈ m₀.functions, ∀ y ∈ f.callees, m₀.contains y) {routed : List String}
    {st : Pass × Module × PassReport × Log} (hr : Routed m₀ routed st) (hsub : m₀.functions ⊆ st.2.1.functions)
    (hnd : (st.2.1.functions.map (·.name)).Nodup) {b z : String} (hb : b ∈ routed)
    (h : ReflTransGen st.2.1.Calls b z) : z ∈ routed ∨ m₀.Quiet z := by
  induction h with
  | refl => exact .inl hb
  | tail _ hzw ih =>
      rcases ih with hz | hz
      · -- the function of a routed name calls only routed or quiet names
        obtain ⟨f, hf, hfz, hw⟩ := hzw
        obtain ⟨g, hg, hgz, -, hcalls⟩ := hr.routes _ hz
        obtain rfl : f = g := List.inj_on_of_nodup_map hnd hf hg (hfz.trans hgz.symm)
        exact hcalls _ hw
      · exact .inr (hz.calls hclosed (Module.calls_of_closed hclosed hsub hnd hz.1 hzw).1)

/-- A kernel that calls a helper that prints. -/
def printingHelper : Module :=
  { name := "m",
    functions := [{ name := "say", body := some [.printf "hi" [] none, .ret] },
      { name := "k", body := some [.call none "say" [], .ret], attrs := { kernel := true } }] }

end Pass

end KernelLaunch
