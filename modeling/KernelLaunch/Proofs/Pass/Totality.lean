import KernelLaunch.Proofs.Ir.Registers
import KernelLaunch.Proofs.Pass.Rerun
import KernelLaunch.Proofs.Layout.Slots

/-!
# Runs without faults

`Pass.runOnModule_total`: on a validated device each of whose limits has a successor in a 64-bit
word, a run over a module whose functions leave room for what the pass numbers after them returns
without a fault, and its report names every kernel to process, as given launchers or as skipped.

The faults a run can meet are overflows of the numbers it hands out: a register past the largest
32-bit word, the successor of a device limit, a local id past the parameters. Each step meets none
in the room it is given. A body's prelude spends one register for each of the at most 27 handles
it reads (`deriveBody_ok`), routing its output three more (`OutputClones.thread_ok`), and a launcher
two for each slot it unpacks and nine more (`LauncherGen.emitLaunchers_ok`). The run is the fold
of the visits, carried by what a run keeps true (`Rerunnable`), which also says that every kernel
was reported.
-/

namespace KernelLaunch

/-- A function that leaves a pass room to number what it adds in 32-bit words: its registers are
below `2^32 - 31`, so the loads of a derived body's prelude and of its output buffer fit after them,
and it has at most `2^31 - 5` parameters, so that a launcher can unpack each into two registers and
the local ids fit after the context pointer. -/
structure Function.LeavesRoom (f : Function) : Prop where
  registers : f.DefsBelow (Word.max32 - 30)
  params : 2 * f.params.length + 9 ≤ Word.max32

instance (f : Function) : Decidable f.LeavesRoom :=
  decidable_of_iff (f.DefsBelow (Word.max32 - 30) ∧ 2 * f.params.length + 9 ≤ Word.max32)
    ⟨fun ⟨h₁, h₂⟩ => ⟨h₁, h₂⟩, fun ⟨h₁, h₂⟩ => ⟨h₁, h₂⟩⟩

/-! ## Deriving a body -/

/-- A context load defines the register it hands out. -/
theorem defsBelowNext_loadFromContext {b b' : Builder} {c : DeviceConfig} {l : ContextLayout} {ctx : Operand}
    {f : ContextField} {dim r : Nat} (hb : b.DefsBelowNext) (h : loadFromContext b c l ctx f dim = .ok (r, b')) :
    b'.DefsBelowNext := by
  obtain ⟨rng, rfl⟩ := loadFromContext_eq_ok h
  exact hb.load _ _ _ _

/-- The operand for a handle defines, if anything, the register of a context load. -/
theorem defsBelowNext_handleValue {b b' : Builder} {c : DeviceConfig} {l : ContextLayout} {flavor : BodyFlavor}
    {n : Nat} {h : HandleRef} {v : Option Operand} (hb : b.DefsBelowNext)
    (hv : handleValue c l flavor n b h = .ok (v, b')) : b'.DefsBelowNext := by
  rcases handleValue_eq_ok hv with rfl | ⟨f, dim, r, hload⟩
  · exact hb
  · exact defsBelowNext_loadFromContext hb hload

open Builder in
/-- The operand for a handle below dimension three is found, spending at most the one register of
a context load, for a body whose kernel has room for a local id per dimension after its
parameters and context pointer. -/
theorem handleValue_ok {c : DeviceConfig} (hc : c.validate = none) (hroom : c.LeavesRoom) {b : Builder} {k n : Nat}
    (h : Room (k + 1) b) (l : ContextLayout) (flavor : BodyFlavor) {r : HandleRef} (hdim : r.dim < 3)
    (hn : n + 3 ≤ Word.max32) : ∃ v b', handleValue c l flavor n b r = .ok (v, b') ∧ Room k b' := by
  unfold handleValue
  split
  · exact ⟨_, b, by rw [if_neg (by omega)], h.mono (by omega)⟩
  · exact ⟨_, b, by rw [if_pos hdim], h.mono (by omega)⟩
  · exact ⟨_, b, rfl, h.mono (by omega)⟩
  · split
    · rename_i field _
      obtain ⟨reg, b', hload, hb'⟩ := loadFromContext_ok hc hroom h l (.param n) field r.dim
      exact ⟨some (.reg reg), b', by simp [hload, bind, Except.bind, pure, Except.pure], hb'⟩
    · exact ⟨_, b, rfl, h.mono (by omega)⟩

open Builder in
/-- On a validated device that leaves room, the body of a kernel that leaves room is derived, or
refused with a diagnostic, without a fault, and its registers stay three below the largest word:
the prelude loads at most one register for each of the at most 27 handles read. -/
theorem deriveBody_ok {c : DeviceConfig} (hc : c.validate = none) (hroom : c.LeavesRoom) {kernel : Function}
    (hk : kernel.LeavesRoom) (l : ContextLayout) (flavor : BodyFlavor) (shaped : Bool) :
    ∃ r, deriveBody kernel c l flavor shaped = .ok r ∧
      ∀ body notes, r = .ok (body, notes) → body.DefsBelow (Word.max32 - 3) := by
  have hM : 30 ≤ Word.max32 := by decide
  unfold deriveBody
  rcases hval : kernel.validateHandles c with d | ⟨⟩
  · exact ⟨.error d, rfl, fun _ _ h => by cases h⟩
  have hdim := Function.dim_lt_of_validateHandles hc hval
  have hlen := kernel.length_handleRefs_le hdim
  dsimp only
  by_cases hsh : (shaped && kernel.handleRefs.any (·.kind == .localId)) = true
  · exact ⟨.error _, by rw [if_pos hsh]; rfl, fun _ _ h => by cases h⟩
  rw [if_neg hsh]
  refine except_bind_ok (Function.regCount?_ok (Nat.sub_le _ _) hk.registers) fun start hstart => ?_
  -- the prelude spends at most one register for each handle, numbered from the kernel's count
  refine except_bind_ok (foldlM_budget
    (I := fun k (s : List (HandleRef × Operand) × Builder) => Room k s.2 ∧ s.2.LoadsOnly ∧ s.2.DefsBelowNext)
    (c := 1) _ (fun s h k hh hs => ?_) _ 3
    ⟨room_startingAt (by omega), loadsOnly_startingAt _, defsBelowNext_startingAt _⟩) fun s hs => ?_
  · obtain ⟨v, b', hv, hb'⟩ := handleValue_ok hc hroom (n := kernel.params.length) hs.1 l flavor (hdim h hh)
      (by have := hk.params; omega)
    have hI : Room k b' ∧ b'.LoadsOnly ∧ b'.DefsBelowNext :=
      ⟨hb', loadsOnly_handleValue hs.2.1 hv, defsBelowNext_handleValue hs.2.2 hv⟩
    cases v with
    | none => exact ⟨(s.1, b'), by simp [hv, hb'.1, bind, Except.bind, pure, Except.pure], hI⟩
    | some o => exact ⟨(s.1 ++ [(h, o)], b'), by simp [hv, hb'.1, bind, Except.bind, pure, Except.pure], hI⟩
  · refine ⟨_, rfl, fun body notes h => ?_⟩
    cases h
    intro i hi r hr
    rw [Function.allInsts_withBody, Inst.preorderList_append, Inst.preorderList_of_loads hs.2.1.finish,
      Function.insts_privatize] at hi
    rcases List.mem_append.mp hi with hi | hi
    · -- a load of the prelude, below the builder's next register
      have := hs.2.2.finish hs.2.1 i hi r hr
      have := hs.1.2
      omega
    · -- a kernel instruction, which defines what it did in the kernel
      have hmem : some r ∈ (Inst.preorderList kernel.insts).map Inst.def? := by
        rw [← Inst.map_def?_preorderList_rewriteList (Inst.keepsLoops_mapOperands _) (Inst.def?_mapOperands _)]
        exact List.mem_map.mpr ⟨i, hi, hr⟩
      obtain ⟨j, hj, hjr⟩ := List.mem_map.mp hmem
      have := hk.registers j hj r hjr
      omega

/-! ## Routing output -/

namespace OutputClones

open Builder

/-- On a validated device that leaves room, threading a body whose registers stay three below the
largest word meets no fault: routing its output takes three context loads, for the buffer, its
position and its capacity. -/
theorem thread_ok {c : DeviceConfig} (hc : c.validate = none) (hroom : c.LeavesRoom) (cache : OutputClones)
    (m : Module) (g : CallGraph) (root : String) (body : Function) (hbody : body.DefsBelow (Word.max32 - 3))
    (ctx : Operand) (l : ContextLayout) : ∃ r, cache.thread m g root body ctx c l = .ok r := by
  suffices h : ∃ r, cache.thread m g root body ctx c l = .ok r ∧ True from h.imp fun _ h => h.1
  have hM : 3 ≤ Word.max32 := by decide
  unfold thread
  dsimp only
  -- whether the kernel prints, and if it does not, the body is handed back
  split <;> split
  case h_1.isTrue | h_2.isTrue => exact ⟨_, rfl, trivial⟩
  all_goals
    refine except_bind_ok (Function.regCount?_ok (Nat.sub_le _ _) hbody) fun start hstart => ?_
    refine except_bind_ok (foldlM_budget (I := fun k (s : List Operand × Builder) => Room k s.2) (c := 1) _
      (fun s f k _ hs => ?_) _ 0 (room_startingAt (by simp only [List.length_cons, List.length_nil]; omega)))
      fun s _ => ⟨_, rfl, trivial⟩
    obtain ⟨r, b', hload, hb'⟩ := loadFromContext_ok hc hroom hs l ctx f 0
    exact ⟨(s.1 ++ [.reg r], b'), by simp [hload, hb'.1, bind, Except.bind, pure, Except.pure], hb'⟩

end OutputClones

/-! ## Launchers -/

namespace LauncherGen

variable {gen : LauncherGen}

/-- On a validated device that leaves room, a conditional launcher is emitted without a fault when,
if it unpacks an argument buffer, the builder can spend two registers for each slot and nine more. -/
theorem emitOpt_ok (hc : gen.cfg.validate = none) (hroom : gen.cfg.LeavesRoom) (name : String) {ov : Option Variant}
    (hslots : ∀ v, ov = some v → ∀ l, v.args = .unpack l → 9 + 2 * l.slots.length ≤ Word.max32) :
    ∃ r, gen.emitOpt name ov = .ok r := by
  cases ov with
  | none => exact ⟨_, rfl⟩
  | some v =>
      obtain ⟨⟨f, notes⟩, hgen⟩ := generate_ok hc hroom v (hslots v rfl)
      exact ⟨([f], notes, some (v.kind.symbol name)), by simp [emitOpt, hgen, bind, Except.bind, pure, Except.pure]⟩

/-- On a validated device that leaves room, a kernel's launchers are emitted without a fault when
the builder can spend two registers for each slot of its argument-buffer layout and nine more. -/
theorem emitLaunchers_ok (hc : gen.cfg.validate = none) (hroom : gen.cfg.LeavesRoom) (name : String) (shaped : Bool)
    (fastSize : Option Dims3) {layout : Option ArgBufferLayout}
    (hslots : ∀ l, layout = some l → 9 + 2 * l.slots.length ≤ Word.max32) :
    ∃ r, gen.emitLaunchers name shaped fastSize layout = .ok r := by
  unfold emitLaunchers
  -- only the argument-buffer launcher unpacks, and what it unpacks is the layout
  refine except_bind_total (generate_ok hc hroom _ fun _ h => by cases h) fun _ => ?_
  refine except_bind_total (emitOpt_ok hc hroom name ?fast) fun _ => ?_
  case fast =>
    intro v hv l hl
    obtain ⟨size, -, rfl⟩ := Option.map_eq_some_iff.mp hv
    cases hl
  refine except_bind_total (emitOpt_ok hc hroom name ?buffer) fun _ => ?_
  case buffer =>
    intro v hv l hl
    obtain ⟨l', hl', rfl⟩ := Option.map_eq_some_iff.mp hv
    cases hl
    exact hslots l hl'
  refine except_bind_total (emitOpt_ok hc hroom name ?grid) fun _ => ⟨_, rfl⟩
  case grid =>
    intro v hv l hl
    split at hv
    · cases hv
      cases hl
    · cases hv

end LauncherGen

/-! ## Runs -/

namespace Pass

variable {p : Pass} {m : Module} {g : CallGraph} {name : String} {kernel : Function} {sg : Option Nat}
  {shaped : Bool}

/-- On a validated device that leaves room, deriving the bodies of a kernel that leaves room meets no
fault, whatever flavors are asked for. -/
theorem deriveBodies_ok (hc : p.cfg.validate = none) (hroom : p.cfg.LeavesRoom) (hk : kernel.LeavesRoom) :
    ∀ (flavors : List BodyFlavor) (log : Log) (outputs : OutputClones) (functions : List Function),
      ∃ r, p.deriveBodies m g name kernel sg shaped flavors log outputs functions = .ok r
  | [], _, _, _ => ⟨_, rfl⟩
  | flavor :: flavors, log, outputs, functions => by
      obtain ⟨res, hres, hdefs⟩ := deriveBody_ok hc hroom hk p.context flavor shaped
      rw [deriveBodies, hres]
      simp only [bind, Except.bind]
      rcases res with d | ⟨body, notes⟩
      · exact ⟨_, rfl⟩
      dsimp only
      split
      · -- the body's output is routed into the buffer first
        obtain ⟨⟨outputs', body', created, more⟩, hthread⟩ := OutputClones.thread_ok hc hroom outputs m g name
          { body with attrs := { body.attrs with subgroupSize := sg } } (hdefs body notes rfl)
          (.param kernel.params.length) p.context
        rw [hthread]
        exact deriveBodies_ok hc hroom hk flavors _ _ _
      · exact deriveBodies_ok hc hroom hk flavors _ _ _

/-- On a validated device every slot of a layout has a width, so laying out a kernel's arguments
meets no fault. -/
theorem layoutFor_ok (hc : p.cfg.validate = none) : ∃ r, p.layoutFor name kernel = .ok r := by
  have hw : p.cfg.allocaLocals = true → 0 < max p.cfg.sizeTBytes p.cfg.ptrBytes := fun _ => by
    obtain ⟨hw, -⟩ := p.cfg.widths_of_validate hc
    simp only [DeviceConfig.sizeTBytes, DeviceConfig.ptrBytes]
    omega
  unfold layoutFor
  split
  · obtain ⟨r, hr⟩ : ∃ r, ArgBufferLayout.compute kernel p.cfg = .ok r := ArgBufferLayout.compute_ok hw
    rw [hr]
    exact ⟨_, rfl⟩
  · exact ⟨_, rfl⟩

/-- A kernel's argument-buffer layout has a slot for each parameter, so a kernel that leaves room
leaves room to unpack them all. -/
theorem slots_of_layoutFor (hk : kernel.LeavesRoom) {layout : Option ArgBufferLayout}
    (hl : p.layoutFor name kernel = .ok (.ok layout)) :
    ∀ l, layout = some l → 9 + 2 * l.slots.length ≤ Word.max32 := by
  intro l hl'
  have hidx := (ArgBufferLayout.compute_eq_ok ((layoutFor_eq_ok hl).2 l hl')).1
  have hlen : l.slots.length = kernel.params.length := by simpa using congrArg List.length hidx
  have := hk.params
  omega

/-- On a validated device that leaves room, processing a kernel that leaves room meets no fault:
the kernel is skipped with a diagnostic, or its bodies and launchers are made. -/
theorem processKernel_ok (hc : p.cfg.validate = none) (hroom : p.cfg.LeavesRoom)
    (hk : ∀ kernel, m.get? name = some kernel → kernel.LeavesRoom) : ∃ r, p.processKernel m g name = .ok r := by
  unfold processKernel
  -- every check before the bodies skips the kernel or lets it through
  rcases hkernel : m.get? name with _ | kernel
  · simp [pure, Except.pure]
  rcases hcp : checkParams p.cfg kernel with d | ⟨⟩
  · simp [hcp, pure, Except.pure]
  rcases hs : requiredSubgroupSize kernel p.cfg with d | sg
  · simp [hcp, hs, pure, Except.pure]
  rcases hh : checkHelpers kernel m g with d | ⟨⟩
  · simp [hcp, hs, hh, pure, Except.pure, bind, Except.bind]
  rcases hf : fastSizeOf kernel p.cfg with d | fastSize
  · simp [hcp, hs, hh, hf, pure, Except.pure, bind, Except.bind]
  rcases hl : p.layoutFor name kernel with fault | sk | layout
  · obtain ⟨r, hr⟩ : ∃ r, p.layoutFor name kernel = .ok r := layoutFor_ok hc
    rw [hr] at hl
    cases hl
  · simp [hcp, hs, hh, hf, hl, pure, Except.pure, bind, Except.bind]
  simp only [hcp, hs, hh, hf, hl, pure, Except.pure, bind, Except.bind]
  have hK := hk kernel hkernel
  have hd : ∃ r, p.deriveBodies m g name kernel sg (kernel.hasWorkgroupBarriers m g)
      (BodyFlavor.dynamic :: (fastSize.map BodyFlavor.fixed).toList) #[] p.outputs [] = .ok r :=
    deriveBodies_ok hc hroom hK _ _ _ _
  obtain ⟨⟨bodyLog, bodies⟩, hd⟩ := hd
  rw [hd]
  rcases bodies with d | ⟨outputs, bodies⟩
  · exact ⟨_, rfl⟩
  have he : ∃ r, ({ cfg := p.cfg, context := p.context, kernel, subgroupSize := sg } : LauncherGen).emitLaunchers
      name (kernel.hasWorkgroupBarriers m g) fastSize layout = .ok r :=
    LauncherGen.emitLaunchers_ok hc hroom _ _ _ (slots_of_layoutFor hK hl)
  obtain ⟨⟨launchers, notes, set⟩, he⟩ := he
  simp only [he]
  split <;> exact ⟨_, rfl⟩

/-- On a device that leaves room, visiting a kernel found as a function that leaves room meets no
fault. -/
theorem visitKernel_ok {st : Pass × Module × PassReport × Log} (hc : st.1.cfg.validate = none)
    (hroom : st.1.cfg.LeavesRoom) (hk : ∀ kernel, st.2.1.get? name = some kernel → kernel.LeavesRoom) :
    ∃ st', visitKernel st name = .ok st' := by
  obtain ⟨p, m, report, log⟩ := st
  obtain ⟨⟨notes, outcome⟩, hpk⟩ := processKernel_ok (g := CallGraph.build m) hc hroom hk
  simp only [visitKernel, hpk, bind, Except.bind]
  cases outcome <;> exact ⟨_, rfl⟩

/-- A run from a validated device that leaves room, over kernels of a module whose functions all
leave room, visits every kernel left without a fault, keeping what a run keeps true. -/
theorem foldlM_visitKernel_ok (hc : p.cfg.validate = none) (hroom : p.cfg.LeavesRoom)
    (hm : ∀ f ∈ m.functions, f.LeavesRoom) {kernels : List String} (hfound : ∀ x ∈ kernels, (m.get? x).isSome) :
    ∀ (rest : List String) (st : Pass × Module × PassReport × Log), Rerunnable p m kernels rest st →
      ∃ st', rest.foldlM visitKernel st = .ok st' ∧ Rerunnable p m kernels [] st'
  | [], st, hv => ⟨st, rfl, hv⟩
  | x :: rest, st, hv => by
      -- the kernel is looked up among the module's own functions, ahead of what the run added
      have hk : ∀ kernel, st.2.1.get? x = some kernel → kernel.LeavesRoom := by
        intro kernel hkernel
        obtain ⟨done, hdone, -⟩ := hv.visited
        obtain ⟨f, hf⟩ := Option.isSome_iff_exists.mp (hfound x (hdone ▸ List.mem_append_right _ List.mem_cons_self))
        obtain ⟨fs, hfs, -⟩ := hv.grows
        have hx : x ∈ m.functions.map (·.name) := by
          obtain ⟨hname, hmem⟩ := Module.get?_eq_some hf
          exact hname ▸ List.mem_map_of_mem hmem
        rw [Module.get?_append_of_mem hx _ hfs, hf, Option.some.injEq] at hkernel
        subst hkernel
        exact hm f (Module.get?_eq_some hf).2
      obtain ⟨st₁, h₁⟩ := visitKernel_ok (hv.cfg ▸ hc) (hv.cfg ▸ hroom) hk
      obtain ⟨st', h', hv'⟩ := foldlM_visitKernel_ok hc hroom hm hfound rest st₁ (hv.visit hfound h₁)
      exact ⟨st', by rw [List.foldlM_cons, h₁]; exact h', hv'⟩

/-- A run of the pass over a module, on a validated device each of whose limits has a successor in a
64-bit word, where every function's registers are below `2^32 - 31` and it has at most
`2^31 - 5` parameters, returns without a fault, and its report names every kernel to process as
given launchers or as skipped. -/
theorem runOnModule_total (hc : p.cfg.validate = none) (hroom : p.cfg.LeavesRoom)
    (hm : ∀ f ∈ m.functions, f.LeavesRoom) :
    ∃ p' m' report log, p.runOnModule m = .ok (p', m', report, log) ∧
      ∀ f ∈ m.functions, f.isKernelToProcess m = true →
        f.name ∈ report.launchers.map (·.kernel) ∨ f.name ∈ report.skipped.map (·.kernel) := by
  suffices h : ∃ r, p.runOnModule m = .ok r ∧ ∀ f ∈ m.functions, f.isKernelToProcess m = true →
      f.name ∈ r.2.2.1.launchers.map (·.kernel) ∨ f.name ∈ r.2.2.1.skipped.map (·.kernel) from
    let ⟨⟨p', m', report, log⟩, hrun, hreport⟩ := h
    ⟨p', m', report, log, hrun, hreport⟩
  have hfound : ∀ x ∈ (m.functions.filter (·.isKernelToProcess m)).map (·.name), (m.get? x).isSome := by
    intro x hx
    obtain ⟨f, hf, rfl⟩ := List.mem_map.mp hx
    exact Module.contains_iff.mpr (List.mem_map_of_mem (List.mem_filter.mp hf).1)
  unfold runOnModule
  refine except_bind_ok (P := Rerunnable p m ((m.functions.filter (·.isKernelToProcess m)).map (·.name)) [])
    (foldlM_visitKernel_ok hc hroom hm hfound _ _
      ⟨rfl, rfl, OutputClones.Named.empty, ⟨[], by simp, by simp⟩, fun _ hx => absurd rfl hx,
        fun _ hx hrest => absurd hx hrest, ⟨[], by simp, by simp, by simp⟩, by simp⟩)
    fun ⟨p₁, m₁, report, log₁⟩ hv => ?_
  -- every kernel was visited, and a visit reports the kernel one way or the other
  obtain ⟨done, hdone, -, hsettled⟩ := hv.visited
  rw [List.append_nil] at hdone
  have hreport : ∀ f ∈ m.functions, f.isKernelToProcess m = true →
      f.name ∈ report.launchers.map (·.kernel) ∨ f.name ∈ report.skipped.map (·.kernel) := fun f hf hk =>
    hsettled f.name (hdone ▸ List.mem_map_of_mem (List.mem_filter.mpr ⟨hf, hk⟩))
  dsimp only
  split <;> exact ⟨_, rfl, hreport⟩

/-- A kernel with a parameter that reads its local size and its group count. -/
def sizeReading : Module :=
  { name := "m",
    functions := [
      { name := "k", params := [{ name := "n", ty := .i32 }],
        body := some [.bin 0 .add (.handle ⟨.localSize, 0⟩) (.handle ⟨.numGroups, 0⟩), .ret],
        attrs := { kernel := true } }] }

theorem runOnModule_total_sizeReading :
    ∃ p' m' report log, (Pass.create DeviceConfig.accel).runOnModule sizeReading = .ok (p', m', report, log) ∧
      ∀ f ∈ sizeReading.functions, f.isKernelToProcess sizeReading = true →
        f.name ∈ report.launchers.map (·.kernel) ∨ f.name ∈ report.skipped.map (·.kernel) :=
  runOnModule_total rfl ⟨by decide, by decide⟩ (by decide)

end Pass

end KernelLaunch
