import KernelLaunch.Proofs.Launch.Builder
import KernelLaunch.Proofs.Interp.Memory
import KernelLaunch.Proofs.Interp.Call
/-!
# Runs of launchers

What a launcher's body does when it runs to its end. A work-item launcher calls its body once per
local id of the work-group, z outermost and x innermost, each time with the arguments, the context
and the id (`run_block_workItems`). A hardware launcher asks the host for the id and calls its
body once with it (`run_block_hardware`), and a launcher of a body that runs the whole group calls
it once with the arguments and the context (`run_block_once`). The `call_` lemmas lift each to a
call of the launcher found in the module under its name.
-/

namespace KernelLaunch

open Machine KernelLaunch.Frame

/-- Reading the first `k` parameters of a frame answers its first `k` arguments. -/
theorem mapM_value?_params {fr : Frame} : ∀ k, k ≤ fr.args.length →
    ((List.range k).map Operand.param).mapM fr.value? = some (fr.args.take k)
  | 0, _ => by simp
  | k + 1, hk => by
      rw [List.range_succ, List.map_append, List.mapM_append, mapM_value?_params k (by omega)]
      have hget : fr.args[k]? = some fr.args[k] := List.getElem?_eq_getElem (by omega)
      simp only [List.map_cons, List.map_nil, List.mapM_cons, List.mapM_nil, value?_param, hget]
      rw [List.take_add_one, hget]
      rfl

namespace LauncherGen

variable {g : LauncherGen} {bounds : Bounds}

/-- The register the extent load of a dimension sets, with the local size it reads: none when
the extent is a constant. -/
def extentRegs (g : LauncherGen) (bounds : Bounds) (next dim value : Nat) : List (Nat × Value) :=
  if dim < g.cfg.maxWorkItemDims then
    match bounds with
    | .fixed _ => []
    | .context => [(next, .int value)]
  else []

theorem mem_extentRegs {ctx : Operand} {next dim value : Nat} {p : Nat × Value}
    (h : p ∈ g.extentRegs bounds next dim value) :
    p = (next, .int value) ∧ next + 1 = next + (g.extentLoad bounds ctx next dim).length := by
  unfold extentRegs at h
  unfold extentLoad
  split at h
  · rename_i hdim
    rw [if_pos hdim]
    cases bounds with
    | fixed size => simp at h
    | context =>
        rw [List.mem_singleton] at h
        exact ⟨h, rfl⟩
  · simp at h

/-- The extent load of a dimension, when there is one, sets its register to the local size the
context holds there, changing no memory and recording nothing; the rest of the block then runs. -/
theorem run_block_extentLoad {callFn : String → List Value → Exec (Option Value)} {fr : Frame}
    {s t : Machine} {res : Flow × Frame} {args : List Value} {regs : List (Nat × Value)}
    {ctx : Pointer} {n next dim value : Nat} {rest : List Inst}
    (hfr : fr.Holds args regs) (hctx : args[n]? = some (.ptr ctx))
    (hagg : (g.context.fieldTy .localSize).isAggregate = false)
    (hptr : (g.context.fieldTy .localSize).pointerSpace = none)
    (hword : dim < g.cfg.maxWorkItemDims → bounds = .context →
      s.wordAt? (ctx.add (g.context.offset .localSize dim)) ((g.context.fieldTy .localSize).size s.ptrBytes) =
        some value)
    (hfresh : ∀ p ∈ regs, p.1 ≠ next)
    (h : (block callFn fr (g.extentLoad bounds (.param n) next dim ++ rest)).run s = .ok res t) :
    ∃ fr' u, fr'.Holds args (g.extentRegs bounds next dim value ++ regs) ∧ u.regions = s.regions ∧
      u.events = s.events ∧ u.ptrBytes = s.ptrBytes ∧ (block callFn fr' rest).run u = .ok res t := by
  unfold extentLoad at h
  unfold extentRegs
  split
  · rename_i hdim
    rw [if_pos hdim] at h
    cases bounds with
    | fixed size => exact ⟨fr, s, hfr, rfl, rfl, rfl, h⟩
    | context =>
        obtain ⟨u, flow, fr', u', htick, hinst, hrest⟩ := run_block_cons_eq_ok h
        obtain ⟨-, rfl⟩ := run_tick_eq_ok.mp htick
        obtain ⟨q, v, hq, hload, hres⟩ := run_inst_load_eq_ok hinst
        rw [value?_param, hfr.1, hctx, Option.some.injEq, Value.ptr.injEq] at hq
        subst hq
        obtain ⟨rfl, k, hk, rfl⟩ := (run_loadValue_int_eq_ok hagg hptr).mp hload
        -- the tick changed no memory, so the load read the context's word
        have hmem : ({ s with steps := s.steps + 1 } : Machine).wordAt? = s.wordAt? := wordAt?_congr rfl
        rw [hmem, hword hdim rfl, Option.some.injEq] at hk
        subst hk
        cases hres
        rcases hrest with ⟨h', -⟩ | ⟨-, hrest⟩
        · cases h'
        · exact ⟨_, { s with steps := s.steps + 1 }, hfr.bind _ hfresh, rfl, rfl, rfl, hrest⟩
  · rename_i hdim
    rw [if_neg hdim] at h
    exact ⟨fr, s, hfr, rfl, rfl, rfl, h⟩

theorem isOne_imm (k : Nat) : isOne (.imm k) = (k == 1) := by
  rcases k with _ | _ | k <;> rfl

/-- A level of the work-item nest runs as many times as the local size of its dimension: its
loop's bound is the fixed size or the register the size was loaded into, and a dimension without
a loop has size one. -/
theorem extent_level {args : List Value} {regs : List (Nat × Value)} {ls : Dims3} {next dim v : Nat}
    (hregs : dim < g.cfg.maxWorkItemDims → bounds = .context → (next, .int (ls.getD dim 0)) ∈ regs)
    (hone : g.cfg.maxWorkItemDims ≤ dim → ls.getD dim 0 = 1)
    (hfix : ∀ size, bounds = .fixed size → dim < g.cfg.maxWorkItemDims → size.getD dim 0 = ls.getD dim 0) :
    Extent args regs (level (g.extentOp bounds next dim) v) (ls.getD dim 0) := by
  unfold extentOp
  split
  · rename_i hdim
    cases bounds with
    | fixed size =>
        rw [← hfix size rfl hdim]
        -- a fixed size of one gets no loop
        by_cases h1 : size.getD dim 0 = 1
        · refine ⟨fun _ => h1, fun fr v' b _ hd => ?_⟩
          simp [level, isOne_imm, h1] at hd
        · refine ⟨fun hd => ?_, fun fr v' b _ hd => ?_⟩
          · simp [level, isOne_imm, h1] at hd
          · simp only [level, isOne_imm, beq_iff_eq, h1, if_false, Option.some.injEq, Prod.mk.injEq] at hd
            obtain ⟨-, rfl⟩ := hd
            rfl
    | context =>
        refine ⟨fun hd => by simp [level, isOne] at hd, fun fr v' b hfr hd => ?_⟩
        simp only [level, isOne, Bool.false_eq_true, if_false, Option.some.injEq, Prod.mk.injEq] at hd
        obtain ⟨-, rfl⟩ := hd
        exact hfr.2 _ (hregs hdim rfl)
  · rename_i hdim
    refine ⟨fun _ => hone (by omega), fun fr v' b _ hd => ?_⟩
    simp [level, isOne] at hd

/-- A level whose variable is above every held register is fresh for them. -/
theorem freshFor_level {regs : List (Nat × Value)} {b : Operand} {v : Nat} (h : ∀ p ∈ regs, p.1 < v) :
    FreshFor regs (level b v) := by
  intro v' b' hd p hp
  unfold level at hd
  split at hd
  · cases hd
  · simp only [Option.some.injEq, Prod.mk.injEq] at hd
    obtain ⟨rfl, -⟩ := hd
    exact Nat.ne_of_lt (h p hp)

/-- Entering a level adds at most its own variable to the held registers. -/
theorem lt_of_mem_bindings_level {regs : List (Nat × Value)} {b : Operand} {v j : Nat}
    (h : ∀ p ∈ regs, p.1 < v) : ∀ p ∈ bindings (level b v) j ++ regs, p.1 < v + opens b := by
  intro p hp
  unfold level opens at *
  split at hp
  · rename_i hb
    rw [if_pos hb]
    simpa [bindings] using h p hp
  · rename_i hb
    rw [if_neg hb]
    rcases List.mem_append.mp hp with hp | hp
    · simp only [bindings, List.mem_singleton] at hp
      subst hp
      exact Nat.lt_succ_self v
    · exact Nat.lt_succ_of_lt (h p hp)

theorem lt_of_mem_extentRegs (ctx : Operand) {next dim value : Nat} {p : Nat × Value}
    (h : p ∈ g.extentRegs bounds next dim value) : p.1 < next + (g.extentLoad bounds ctx next dim).length := by
  obtain ⟨rfl, hlen⟩ : _ ∧ next + 1 = next + (g.extentLoad bounds ctx next dim).length := mem_extentRegs h
  omega

theorem run_block_workItems {fuel : Nat} {kind : LauncherKind} {body : String} {f : Function}
    {log : Log} {insts : List Inst} {args : List Value} {ctx : Pointer} {ls : Dims3} {s t : Machine}
    {res : Flow × Frame}
    (hgen : g.generate ⟨kind, .direct, .forward, .workItems body bounds⟩ = .ok (f, log))
    (hinsts : f.body = some insts) (hlen : args.length = g.kernel.params.length)
    (hagg : (g.context.fieldTy .localSize).isAggregate = false)
    (hptr : (g.context.fieldTy .localSize).pointerSpace = none)
    (hone : ∀ d < 3, g.cfg.maxWorkItemDims ≤ d → ls.getD d 0 = 1)
    (hfix : ∀ size, bounds = .fixed size → ∀ d < g.cfg.maxWorkItemDims, size.getD d 0 = ls.getD d 0)
    (hword : bounds = .context → ∀ d < g.cfg.maxWorkItemDims,
      s.wordAt? (ctx.add (g.context.offset .localSize d)) ((g.context.fieldTy .localSize).size s.ptrBytes) =
        some (ls.getD d 0))
    (h : (block (call fuel) { func := f, args := args ++ [.ptr ctx] } insts).run s = .ok res t) :
    CallsAlong body (fun a _ p => a = args ++ [.ptr ctx, .int p.x, .int p.y, .int p.z]) ls.box s t := by
  obtain ⟨-, -, hbody⟩ := generate_workItems_eq_ok hgen
  rw [hinsts, Option.some.injEq] at hbody
  subst hbody
  set n := g.kernel.params.length with hn
  set L₀ := g.extentLoad bounds (.param n) 0 0 with hL₀
  set L₁ := g.extentLoad bounds (.param n) L₀.length 1 with hL₁
  set L₂ := g.extentLoad bounds (.param n) (L₀.length + L₁.length) 2 with hL₂
  set d := levels (L₀.length + L₁.length + L₂.length) (g.extentOp bounds 0 0) (g.extentOp bounds L₀.length 1)
    (g.extentOp bounds (L₀.length + L₁.length) 2) with hd
  have hctx : (args ++ [Value.ptr ctx])[n]? = some (.ptr ctx) := by
    rw [← hlen]
    simp
  have hfr₀ : Frame.Holds (args ++ [.ptr ctx]) [] { func := f, args := args ++ [.ptr ctx] } := ⟨rfl, by simp⟩
  -- the three extent loads, x first, each a register above the ones before
  rw [List.append_assoc L₀, List.append_assoc L₀, List.append_assoc L₀] at h
  obtain ⟨fr₁, u₁, hfr₁, hr₁, he₁, hp₁, h₁⟩ := run_block_extentLoad hfr₀ hctx hagg hptr
    (fun hdim hb => hword hb 0 hdim) (by simp) h
  have hlt₁ : ∀ p ∈ g.extentRegs bounds 0 0 (ls.getD 0 0) ++ [], p.1 < L₀.length := by
    intro p hp
    have hlt := lt_of_mem_extentRegs (.param n)
      (show p ∈ g.extentRegs bounds 0 0 (ls.getD 0 0) by simpa using hp)
    rw [hL₀]
    omega
  rw [List.append_assoc L₁, List.append_assoc L₁] at h₁
  obtain ⟨fr₂, u₂, hfr₂, hr₂, he₂, hp₂, h₂⟩ := run_block_extentLoad hfr₁ hctx hagg hptr
    (fun hdim hb => by rw [wordAt?_congr hr₁, hp₁]; exact hword hb 1 hdim)
    (fun p hp => Nat.ne_of_lt (hlt₁ p hp)) h₁
  have hlt₂ : ∀ p ∈ g.extentRegs bounds L₀.length 1 (ls.getD 1 0) ++
      (g.extentRegs bounds 0 0 (ls.getD 0 0) ++ []), p.1 < L₀.length + L₁.length := by
    intro p hp
    rcases List.mem_append.mp hp with hp | hp
    · have hlt := lt_of_mem_extentRegs (.param n) hp
      rw [hL₁]
      omega
    · have hlt := hlt₁ p hp
      omega
  rw [List.append_assoc L₂] at h₂
  obtain ⟨fr₃, u₃, hfr₃, hr₃, he₃, hp₃, h₃⟩ := run_block_extentLoad hfr₂ hctx hagg hptr
    (fun hdim hb => by rw [wordAt?_congr hr₂, hp₂, wordAt?_congr hr₁, hp₁]; exact hword hb 2 hdim)
    (fun p hp => Nat.ne_of_lt (hlt₂ p hp)) h₂
  set R := g.extentRegs bounds (L₀.length + L₁.length) 2 (ls.getD 2 0) ++
    (g.extentRegs bounds L₀.length 1 (ls.getD 1 0) ++ (g.extentRegs bounds 0 0 (ls.getD 0 0) ++ [])) with hR
  have hlt₃ : ∀ p ∈ R, p.1 < L₀.length + L₁.length + L₂.length := by
    intro p hp
    rcases List.mem_append.mp hp with hp | hp
    · have hlt := lt_of_mem_extentRegs (.param n) hp
      rw [hL₂]
      omega
    · have hlt := hlt₂ p hp
      omega
  -- the nest: each level runs as many times as the local size of its dimension
  have hz : Extent (args ++ [.ptr ctx]) R d.1 ls.z :=
    extent_level (fun hdim hb => by subst hb; simp [hR, extentRegs, hdim]) (hone 2 (by decide))
      (fun size hb hdim => hfix size hb 2 hdim)
  have hy : Extent (args ++ [.ptr ctx]) R d.2.1 ls.y :=
    extent_level (fun hdim hb => by subst hb; simp [hR, extentRegs, hdim]) (hone 1 (by decide))
      (fun size hb hdim => hfix size hb 1 hdim)
  have hx : Extent (args ++ [.ptr ctx]) R d.2.2 ls.x :=
    extent_level (fun hdim hb => by subst hb; simp [hR, extentRegs, hdim]) (hone 0 (by decide))
      (fun size hb hdim => hfix size hb 0 hdim)
  have hfz : FreshFor R d.1 := freshFor_level hlt₃
  have hfy : ∀ z, FreshFor (bindings d.1 z ++ R) d.2.1 := fun _ =>
    freshFor_level (lt_of_mem_bindings_level hlt₃)
  have hfx : ∀ z y, FreshFor (bindings d.2.1 y ++ (bindings d.1 z ++ R)) d.2.2 := fun _ _ =>
    freshFor_level (lt_of_mem_bindings_level (lt_of_mem_bindings_level hlt₃))
  have hlead : ∀ fr : Frame, fr.Holds (args ++ [.ptr ctx]) R →
      ((List.range n).map Operand.param ++ [Operand.param n]).mapM fr.value? = some (args ++ [.ptr ctx]) := by
    intro fr hfr
    rw [List.mapM_append, mapM_value?_params n (by simp [hfr.1, hlen])]
    simp [hfr.1, ← hlen]
  obtain ⟨flow, fr₄, u₄, hnest, hrest⟩ := run_block_append_eq_ok h₃
  obtain ⟨hflow, -, hcalls⟩ := run_block_nest_call hz hy hx hfz hfy hfx hlead hfr₃ hnest
  rcases hrest with ⟨rfl, -⟩ | ⟨-, hret⟩
  · cases hflow
  · obtain ⟨-, hev⟩ := run_block_ret_eq_ok hret
    refine CallsAlong.other_left (OtherCalls.of_events_eq (by rw [he₃, he₂, he₁])) ?_
    refine CallsAlong.other_right ?_ (OtherCalls.of_events_eq hev)
    exact hcalls.mono fun a _ p ha => by simpa using ha

/-- The registers the local-id calls of a hardware launcher set, with the ids they hold. -/
def idRegs (m next : Nat) (lid : Dims3) : List (Nat × Value) :=
  (List.range m).map fun d => (next + d, .int (lid.getD d 0))

theorem idRegs_succ (m next : Nat) (lid : Dims3) :
    idRegs (m + 1) next lid = idRegs m next lid ++ [(next + m, .int (lid.getD m 0))] := by
  simp [idRegs, List.range_succ]

theorem idCalls_succ (m next : Nat) :
    idCalls (m + 1) next = idCalls m next ++ [.call (some (next + m)) localIdIntrinsic [.imm m]] := by
  simp [idCalls, List.range_succ]

/-- Asking the host for the local id of each of the first `m` dimensions, when the intrinsic is a
declaration of the module, binds the ids to the registers from `next` on, keeps what only the
host sets, and records only the intrinsic's calls. -/
theorem run_block_idCalls {fuel : Nat} {callee : String} {args : List Value} {s : Machine}
    (hne : localIdIntrinsic ≠ callee)
    (hdecl : ∀ fi, s.module.get? localIdIntrinsic = some fi → fi.body = none) (next : Nat) :
    ∀ m {rest : List Inst} {fr : Frame} {res : Flow × Frame} {t : Machine}, fr.args = args →
      (block (call fuel) fr (idCalls m next ++ rest)).run s = .ok res t →
      ∃ fr' u, fr'.Holds args (idRegs m next s.localId) ∧ Fixed s u ∧ OtherCalls callee s u ∧
        (block (call fuel) fr' rest).run u = .ok res t
  | 0, _, fr, _, _, hfr, h => ⟨fr, s, ⟨hfr, by simp [idRegs]⟩, .refl s, .refl s, h⟩
  | m + 1, rest, fr, res, t, hfr, h => by
      rw [idCalls_succ, List.append_assoc] at h
      obtain ⟨fr₁, u₁, hfr₁, hfix₁, hother₁, h₁⟩ := run_block_idCalls hne hdecl next m hfr h
      obtain ⟨u₂, flow, fr₂, u₃, htick, hinst, hrest⟩ := run_block_cons_eq_ok h₁
      obtain ⟨-, rfl⟩ := run_tick_eq_ok.mp htick
      obtain ⟨vs, r, hvs, hcall, hres⟩ := run_inst_call_some_eq_ok hinst
      simp only [List.mapM_cons, List.mapM_nil, value?_imm, Option.pure_def, Option.bind_eq_bind,
        Option.bind_some, Option.some.injEq] at hvs
      subst hvs
      -- the intrinsic is a declaration, so the host answers the id it set
      obtain ⟨fi, hfi, -, hcase⟩ := run_call_eq_ok hcall
      have hbody : fi.body = none := hdecl fi (by rw [← hfix₁.module]; exact hfi)
      rcases hcase with ⟨-, rfl, rfl⟩ | ⟨body, _, _, _, hsome, -⟩
      · rcases hrest with ⟨rfl, -⟩ | ⟨-, hrest⟩
        · cases hres
        · cases hres
          refine ⟨_, _, ?_, ?_, ?_, hrest⟩
          · rw [idRegs_succ, hfix₁.localId]
            refine (hfr₁.bind _ fun p hp => ?_).mono fun p hp => ?_
            · obtain ⟨d, hd, rfl⟩ := List.mem_map.mp hp
              simp only [List.mem_range] at hd
              omega
            · simpa [or_comm] using hp
          · exact ⟨hfix₁.module, hfix₁.ptrBytes, hfix₁.localId, hfix₁.events.trans (by simp)⟩
          · exact hother₁.trans ((OtherCalls.of_events_eq rfl).trans (.of_events_push rfl hne))
      · rw [hbody] at hsome
        cases hsome

/-- The ids a hardware launcher passes are the local id, when the dimensions past the device's
have id zero. -/
theorem mapM_value?_hardwareIdOps {m next : Nat} {lid : Dims3} {args : List Value} {fr : Frame}
    (hfr : fr.Holds args (idRegs m next lid)) (hzero : ∀ d < 3, m ≤ d → lid.getD d 0 = 0) :
    (hardwareIdOps m next).mapM fr.value? = some [.int lid.x, .int lid.y, .int lid.z] := by
  have hop : ∀ d < 3, fr.value? (if d < m then .reg (next + d) else .imm 0) = some (.int (lid.getD d 0)) := by
    intro d hd
    split_ifs with hdm
    · exact hfr.2 (next + d, _) (List.mem_map.mpr ⟨d, List.mem_range.mpr hdm, rfl⟩)
    · rw [hzero d hd (by omega)]
      rfl
  have hrange : List.range 3 = [0, 1, 2] := rfl
  simp only [hardwareIdOps, hrange, List.map_cons, List.map_nil, List.mapM_cons, List.mapM_nil,
    hop 0 (by decide), hop 1 (by decide), hop 2 (by decide)]
  rfl

/-- A hardware launcher's run calls its body once, with the arguments, the context and the local
id the host set, when the intrinsic is a declaration and the dimensions past the device's have id
zero. -/
theorem run_block_hardware {fuel : Nat} {kind : LauncherKind} {body : String} {f : Function}
    {log : Log} {insts : List Inst} {args : List Value} {ctx : Pointer} {s t : Machine}
    {res : Flow × Frame} (hm : g.cfg.maxWorkItemDims ≤ 3)
    (hgen : g.generate ⟨kind, .direct, .forward, .hardware body⟩ = .ok (f, log))
    (hinsts : f.body = some insts) (hlen : args.length = g.kernel.params.length)
    (hne : localIdIntrinsic ≠ body)
    (hdecl : ∀ fi, s.module.get? localIdIntrinsic = some fi → fi.body = none)
    (hzero : ∀ d < 3, g.cfg.maxWorkItemDims ≤ d → s.localId.getD d 0 = 0)
    (h : (block (call fuel) { func := f, args := args ++ [.ptr ctx] } insts).run s = .ok res t) :
    CallsAlong body (fun a _ p => a = args ++ [.ptr ctx, .int p.x, .int p.y, .int p.z]) [s.localId] s t := by
  obtain ⟨-, -, hbody⟩ := generate_hardware_eq_ok hm hgen
  rw [hinsts, Option.some.injEq] at hbody
  subst hbody
  obtain ⟨fr, u, hfr, -, hother, hrun⟩ := run_block_idCalls hne hdecl 0 _ rfl h
  have hvs : ((List.range g.kernel.params.length).map Operand.param ++ [Operand.param g.kernel.params.length] ++
      hardwareIdOps g.cfg.maxWorkItemDims 0).mapM fr.value? =
      some (args ++ [.ptr ctx, .int s.localId.x, .int s.localId.y, .int s.localId.z]) := by
    rw [List.mapM_append, List.mapM_append, mapM_value?_params _ (by simp [hfr.1, hlen]),
      mapM_value?_hardwareIdOps hfr hzero]
    simp [hfr.1, ← hlen]
  exact CallsAlong.other_left hother (run_block_call_ret hvs rfl hrun)

/-- Counting a step grows nothing. -/
theorem grows_steps (s : Machine) : Grows s { s with steps := s.steps + 1 } :=
  .of_regions_eq rfl rfl rfl rfl rfl

/-- A launcher that calls its body once does so with the arguments and the context, from a
machine grown from the one it started in; the entry `x` the call stands for is any the caller
chooses. -/
theorem run_block_once {σ : Type} {fuel : Nat} {kind : LauncherKind} {body : String} {f : Function}
    {log : Log} {insts : List Inst} {args : List Value} {ctx : Pointer} {s t : Machine}
    {res : Flow × Frame} (x : σ)
    (hgen : g.generate ⟨kind, .direct, .forward, .once body⟩ = .ok (f, log))
    (hinsts : f.body = some insts) (hlen : args.length = g.kernel.params.length)
    (h : (block (call fuel) { func := f, args := args ++ [.ptr ctx] } insts).run s = .ok res t) :
    CallsAlong body (fun a u _ => a = args ++ [.ptr ctx] ∧ Grows s u) [x] s t := by
  obtain ⟨-, -, hbody⟩ := generate_once_eq_ok hgen
  rw [hinsts, Option.some.injEq] at hbody
  subst hbody
  have hvs : ((List.range g.kernel.params.length).map Operand.param ++
      [Operand.param g.kernel.params.length]).mapM
      (Frame.value? { func := f, args := args ++ [.ptr ctx] }) = some (args ++ [.ptr ctx]) := by
    rw [List.mapM_append, mapM_value?_params _ (by simp [hlen])]
    simp [← hlen]
  exact run_block_call_ret (R := fun a u _ => a = args ++ [.ptr ctx] ∧ Grows s u) hvs ⟨rfl, grows_steps s⟩ h

/-- A call of a work-item launcher, found under its name, calls its body once per local id of the
box of local sizes, in launch order, with the arguments, the context and the id. -/
theorem call_workItems {fuel : Nat} {kind : LauncherKind} {name body : String} {f : Function}
    {log : Log} {args : List Value} {ctx : Pointer} {ls : Dims3} {s t : Machine} {r : Option Value}
    (hf : s.module.get? name = some f)
    (hgen : g.generate ⟨kind, .direct, .forward, .workItems body bounds⟩ = .ok (f, log))
    (hne : name ≠ body)
    (hagg : (g.context.fieldTy .localSize).isAggregate = false)
    (hptr : (g.context.fieldTy .localSize).pointerSpace = none)
    (hone : ∀ d < 3, g.cfg.maxWorkItemDims ≤ d → ls.getD d 0 = 1)
    (hfix : ∀ size, bounds = .fixed size → ∀ d < g.cfg.maxWorkItemDims, size.getD d 0 = ls.getD d 0)
    (hword : bounds = .context → ∀ d < g.cfg.maxWorkItemDims,
      s.wordAt? (ctx.add (g.context.offset .localSize d)) ((g.context.fieldTy .localSize).size s.ptrBytes) =
        some (ls.getD d 0))
    (h : (call fuel name (args ++ [.ptr ctx])).run s = .ok r t) :
    CallsAlong body (fun a _ p => a = args ++ [.ptr ctx, .int p.x, .int p.y, .int p.z]) ls.box s t := by
  obtain ⟨f', hf', harity, -⟩ := run_call_eq_ok h
  rw [hf, Option.some.injEq] at hf'
  subst hf'
  obtain ⟨-, hparams, hbody⟩ := generate_workItems_eq_ok hgen
  have hlen : args.length = g.kernel.params.length := by
    rw [hparams] at harity
    simpa using harity.symm
  refine CallsAlong.of_call hne hf hbody (fun fuel' res u hrun => ?_) h
  exact run_block_workItems hgen hbody hlen hagg hptr hone hfix
    (fun hb d hd => by rw [wordAt?_congr rfl]; exact hword hb d hd) hrun

/-- A call of a hardware launcher, found under its name, calls its body once, with the arguments,
the context and the local id the host set, when the intrinsic is a declaration and the dimensions
past the device's have id zero. -/
theorem call_hardware {fuel : Nat} {kind : LauncherKind} {name body : String} {f : Function}
    {log : Log} {args : List Value} {ctx : Pointer} {s t : Machine} {r : Option Value}
    (hm : g.cfg.maxWorkItemDims ≤ 3) (hf : s.module.get? name = some f)
    (hgen : g.generate ⟨kind, .direct, .forward, .hardware body⟩ = .ok (f, log))
    (hne : name ≠ body) (hne' : localIdIntrinsic ≠ body)
    (hdecl : ∀ fi, s.module.get? localIdIntrinsic = some fi → fi.body = none)
    (hzero : ∀ d < 3, g.cfg.maxWorkItemDims ≤ d → s.localId.getD d 0 = 0)
    (h : (call fuel name (args ++ [.ptr ctx])).run s = .ok r t) :
    CallsAlong body (fun a _ p => a = args ++ [.ptr ctx, .int p.x, .int p.y, .int p.z]) [s.localId] s t := by
  obtain ⟨f', hf', harity, -⟩ := run_call_eq_ok h
  rw [hf, Option.some.injEq] at hf'
  subst hf'
  obtain ⟨-, hparams, hbody⟩ := generate_hardware_eq_ok hm hgen
  have hlen : args.length = g.kernel.params.length := by
    rw [hparams] at harity
    simpa using harity.symm
  exact CallsAlong.of_call hne hf hbody
    (fun fuel' res u hrun => run_block_hardware (s := { s with
      events := s.events.push (.call name (args ++ [.ptr ctx])), depth := s.depth + 1 })
      hm hgen hbody hlen hne' hdecl hzero hrun) h

/-- A call of a launcher that calls its body once does so with the arguments and the context, from
a machine grown from the one the launcher's body started in. -/
theorem call_once {σ : Type} {fuel : Nat} {kind : LauncherKind} {name body : String} {f : Function}
    {log : Log} {args : List Value} {ctx : Pointer} {s t : Machine} {r : Option Value} (x : σ)
    (hf : s.module.get? name = some f)
    (hgen : g.generate ⟨kind, .direct, .forward, .once body⟩ = .ok (f, log)) (hne : name ≠ body)
    (h : (call fuel name (args ++ [.ptr ctx])).run s = .ok r t) :
    CallsAlong body (fun a u _ => a = args ++ [.ptr ctx] ∧
      Grows { s with events := s.events.push (.call name (args ++ [.ptr ctx])), depth := s.depth + 1 } u)
      [x] s t := by
  obtain ⟨f', hf', harity, -⟩ := run_call_eq_ok h
  rw [hf, Option.some.injEq] at hf'
  subst hf'
  obtain ⟨-, hparams, hbody⟩ := generate_once_eq_ok hgen
  have hlen : args.length = g.kernel.params.length := by
    rw [hparams] at harity
    simpa using harity.symm
  exact CallsAlong.of_call hne hf hbody (fun fuel' res u hrun => run_block_once x hgen hbody hlen hrun) h

end LauncherGen

end KernelLaunch
