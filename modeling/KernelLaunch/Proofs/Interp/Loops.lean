import KernelLaunch.Proofs.Interp.Trace
/-!
# Blocks and loop nests

How the interpreter runs a list of instructions, and what a loop nest does. The launchers loop
over up to three dimensions, z outermost, and a dimension may have no loop at all; `Inst.around`
describes one level of such a nest, and `Inst.index` the operand its index is read from.

The main statement is `run_block_around`: a level whose bound reads `n` runs its body `n` times,
with the loop variable holding `0, 1, …, n - 1`, and a level without a loop runs its body once,
so a run through the level is the runs of its body one after the other. Nests are handled one
level at a time, each level keeping an invariant of the frames it runs in.
-/

namespace KernelLaunch

/-- One level of a loop nest around a body: `some (var, bound)` loops the body over
`0, …, bound - 1`, the variable holding the iteration; `none` runs the body once in place. -/
def Inst.around : Option (Nat × Operand) → List Inst → List Inst
  | none, body => body
  | some (v, b), body => [.loop v b body]

/-- The operand a level's index is read from: its loop variable, or zero without a loop. -/
def Inst.index : Option (Nat × Operand) → Operand
  | none => .imm 0
  | some (v, _) => .reg v

theorem Inst.around_ne_nil (d : Option (Nat × Operand)) {body : List Inst} (h : body ≠ []) :
    Inst.around d body ≠ [] := by
  cases d <;> simp [Inst.around, h]

/-- The frame an iteration of a level runs its body in: the loop variable set to `j`. -/
def Frame.enter (fr : Frame) : Option (Nat × Operand) → Nat → Frame
  | none, _ => fr
  | some (v, _), j => fr.bind v (.int j)

/-- The frame has the arguments `args` and holds each register of `regs` at its value. -/
def Frame.Holds (args : List Value) (regs : List (Nat × Value)) (fr : Frame) : Prop :=
  fr.args = args ∧ ∀ p ∈ regs, fr.reg? p.1 = some p.2

namespace Frame

variable {args : List Value} {regs : List (Nat × Value)} {fr : Frame}

/-- Setting a register no held one uses keeps what the frame holds, and holds the new one. -/
theorem Holds.bind (h : fr.Holds args regs) {r : Nat} (x : Value) (hr : ∀ p ∈ regs, p.1 ≠ r) :
    (fr.bind r x).Holds args ((r, x) :: regs) := by
  refine ⟨h.1, ?_⟩
  intro p hp
  rcases List.mem_cons.mp hp with rfl | hp
  · exact reg?_bind_self fr _ _
  · rw [reg?_bind_ne fr x (hr p hp)]
    exact h.2 p hp

theorem Holds.mono {regs' : List (Nat × Value)} (hsub : regs ⊆ regs') (h : fr.Holds args regs') :
    fr.Holds args regs :=
  ⟨h.1, fun q hq => h.2 q (hsub hq)⟩

/-- The register a level's loop sets for index `j`: none without a loop. -/
def bindings : Option (Nat × Operand) → Nat → List (Nat × Value)
  | none, _ => []
  | some (v, _), j => [(v, .int j)]

/-- A level's loop variable, if it has one, is none of the registers of `regs`. -/
def FreshFor (regs : List (Nat × Value)) (d : Option (Nat × Operand)) : Prop :=
  ∀ v b, d = some (v, b) → ∀ p ∈ regs, p.1 ≠ v

/-- Entering a level at index `j` holds the level's variable at `j`, besides what the frame held,
when the variable is none of the held registers. -/
theorem Holds.enter (h : fr.Holds args regs) (d : Option (Nat × Operand)) (j : Nat)
    (hfresh : FreshFor regs d) :
    (fr.enter d j).Holds args (bindings d j ++ regs) := by
  cases d with
  | none => exact h
  | some loop =>
      obtain ⟨v, b⟩ := loop
      exact h.bind (.int j) (hfresh v b rfl)

/-- The index operand of a level reads the index in a frame holding the level's variable at it. -/
theorem Holds.value?_index {regs' : List (Nat × Value)} {d : Option (Nat × Operand)} {j : Nat}
    (h : fr.Holds args regs') (hb : bindings d j ⊆ regs') (hj : d = none → j = 0) :
    fr.value? (Inst.index d) = some (.int j) := by
  cases d with
  | none =>
      obtain rfl := hj rfl
      rfl
  | some loop =>
      obtain ⟨v, b⟩ := loop
      exact h.2 (v, .int j) (hb (List.mem_singleton_self _))

/-- A level runs `n` times in every frame holding `regs`: its bound reads `n` there, or it has no
loop and `n` is one. -/
def Extent (args : List Value) (regs : List (Nat × Value)) (d : Option (Nat × Operand)) (n : Nat) :
    Prop :=
  (d = none → n = 1) ∧ ∀ (fr : Frame) v b, fr.Holds args regs → d = some (v, b) → fr.value? b = some (.int n)

/-- What a level runs in frames holding `regs` it runs in frames holding more. -/
theorem Extent.mono {regs' : List (Nat × Value)} {d : Option (Nat × Operand)} {n : Nat}
    (h : Extent args regs d n) (hsub : regs ⊆ regs') : Extent args regs' d n :=
  ⟨h.1, fun fr v b hfr hd => h.2 fr v b (hfr.mono hsub) hd⟩

end Frame

/-- The points of a box of extents, in the order a launch visits them: `z` outermost, `x`
innermost. -/
def Dims3.box (b : Dims3) : List Dims3 :=
  (List.range b.z).flatMap fun z => (List.range b.y).flatMap fun y =>
    (List.range b.x).map fun x => ⟨x, y, z⟩

@[simp]
theorem Dims3.length_box (b : Dims3) : b.box.length = b.x * b.y * b.z := by
  simp [Dims3.box, List.length_flatMap, List.map_const', Nat.mul_comm,
    Nat.mul_left_comm]

namespace Machine

variable {σ : Type} {callee : String} {R : List Value → Machine → σ → Prop}
  {callFn : String → List Value → Exec (Option Value)} {fr : Frame} {s t : Machine}
  {res : Flow × Frame}

/-- An empty block ends at once. -/
theorem run_block_nil_eq_ok : (block callFn fr []).run s = .ok res t ↔ res = (.next, fr) ∧ t = s := by
  simp only [block]
  rw [run_pure_eq_ok]
  constructor
  · rintro ⟨rfl, rfl⟩
    exact ⟨rfl, rfl⟩
  · rintro ⟨rfl, rfl⟩
    exact ⟨rfl, rfl⟩

/-- A block that succeeds counted a step, ran its first instruction, and then either returned
or ran the rest. -/
theorem run_block_cons_eq_ok {i : Inst} {is : List Inst}
    (h : (block callFn fr (i :: is)).run s = .ok res t) :
    ∃ u flow fr' u', tick.run s = .ok () u ∧ (inst callFn fr i).run u = .ok (flow, fr') u' ∧
      ((flow = .ret ∧ res = (.ret, fr') ∧ t = u') ∨
        (flow = .next ∧ (block callFn fr' is).run u' = .ok res t)) := by
  simp only [block] at h
  obtain ⟨_, u, htick, h⟩ := run_bind_eq_ok.mp h
  obtain ⟨⟨flow, fr'⟩, u', hinst, h⟩ := run_bind_eq_ok.mp h
  refine ⟨u, flow, fr', u', htick, hinst, ?_⟩
  cases flow with
  | ret =>
      obtain ⟨rfl, rfl⟩ := run_pure_eq_ok.mp h
      exact .inl ⟨rfl, rfl, rfl⟩
  | next => exact .inr ⟨rfl, h⟩

/-- A block whose first instruction goes on to the next counts a step, runs that instruction,
and runs the rest. -/
theorem run_block_cons_next {i : Inst} {is : List Inst}
    (hnext : ∀ u flow fr' u', (inst callFn fr i).run u = .ok (flow, fr') u' → flow = .next)
    (h : (block callFn fr (i :: is)).run s = .ok res t) :
    ∃ fr' u, (inst callFn fr i).run { s with steps := s.steps + 1 } = .ok (.next, fr') u ∧
      (block callFn fr' is).run u = .ok res t := by
  obtain ⟨u, flow, fr', u', htick, hinst, hrest⟩ := run_block_cons_eq_ok h
  obtain ⟨-, rfl⟩ := run_tick_eq_ok.mp htick
  obtain rfl := hnext _ _ _ _ hinst
  rcases hrest with ⟨h', -⟩ | ⟨-, hrest⟩
  · cases h'
  · exact ⟨fr', u', hinst, hrest⟩

/-- A block of two parts runs the first, then the second unless the first returned. -/
theorem run_block_append_eq_ok {xs ys : List Inst}
    (h : (block callFn fr (xs ++ ys)).run s = .ok res t) :
    ∃ flow fr' u, (block callFn fr xs).run s = .ok (flow, fr') u ∧
      ((flow = .ret ∧ res = (.ret, fr') ∧ t = u) ∨
        (flow = .next ∧ (block callFn fr' ys).run u = .ok res t)) := by
  induction xs generalizing fr s with
  | nil => exact ⟨.next, fr, s, run_block_nil_eq_ok.mpr ⟨rfl, rfl⟩, .inr ⟨rfl, h⟩⟩
  | cons i is ih =>
      obtain ⟨u, flow, fr', u', htick, hinst, hrest⟩ := run_block_cons_eq_ok h
      rcases hrest with ⟨rfl, rfl, rfl⟩ | ⟨rfl, hrest⟩
      · refine ⟨.ret, fr', t, ?_, .inl ⟨rfl, rfl, rfl⟩⟩
        simp only [block]
        rw [run_bind_eq_ok]
        refine ⟨(), u, htick, ?_⟩
        rw [run_bind_eq_ok]
        exact ⟨(.ret, fr'), t, hinst, rfl⟩
      · obtain ⟨flow', fr'', u'', hxs, hys⟩ := ih hrest
        refine ⟨flow', fr'', u'', ?_, hys⟩
        simp only [block]
        rw [run_bind_eq_ok]
        refine ⟨(), u, htick, ?_⟩
        rw [run_bind_eq_ok]
        exact ⟨(.next, fr'), u', hinst, hxs⟩

/-- A block that only returns counts a step and records nothing. -/
theorem run_block_ret_eq_ok (h : (block callFn fr [.ret]).run s = .ok res t) :
    res = (.ret, fr) ∧ t.events = s.events := by
  obtain ⟨u, flow, fr', u', htick, hinst, hrest⟩ := run_block_cons_eq_ok h
  obtain ⟨-, rfl⟩ := run_tick_eq_ok.mp htick
  simp only [inst] at hinst
  obtain ⟨hres, rfl⟩ := run_pure_eq_ok.mp hinst
  cases hres
  rcases hrest with ⟨-, rfl, rfl⟩ | ⟨h', -⟩
  · exact ⟨rfl, rfl⟩
  · cases h'

/-- A call instruction that keeps no result runs the call on the values of its arguments. -/
theorem run_inst_call_none_eq_ok {c : String} {os : List Operand}
    (h : (inst callFn fr (.call none c os)).run s = .ok res t) :
    ∃ vs r, os.mapM fr.value? = some vs ∧ (callFn c vs).run s = .ok r t ∧ res = (.next, fr) := by
  simp only [inst] at h
  obtain ⟨vs, u, hmap, hrest⟩ := run_bind_eq_ok.mp h
  obtain ⟨hvs, rfl⟩ := Frame.run_mapM_eval_eq_ok.mp hmap
  obtain ⟨r, u', hcall, hret⟩ := run_bind_eq_ok.mp hrest
  obtain ⟨rfl, rfl⟩ := run_pure_eq_ok.mp hret
  exact ⟨vs, r, hvs, hcall, rfl⟩

/-- A call instruction that keeps its result runs the call on the values of its arguments and
binds the answer, zero for none, to its register. -/
theorem run_inst_call_some_eq_ok {reg : Nat} {c : String} {os : List Operand}
    (h : (inst callFn fr (.call (some reg) c os)).run s = .ok res t) :
    ∃ vs r, os.mapM fr.value? = some vs ∧ (callFn c vs).run s = .ok r t ∧
      res = (.next, fr.bind reg (r.getD (.int 0))) := by
  simp only [inst] at h
  obtain ⟨vs, u, hmap, hrest⟩ := run_bind_eq_ok.mp h
  obtain ⟨hvs, rfl⟩ := Frame.run_mapM_eval_eq_ok.mp hmap
  obtain ⟨r, u', hcall, hret⟩ := run_bind_eq_ok.mp hrest
  obtain ⟨rfl, rfl⟩ := run_pure_eq_ok.mp hret
  exact ⟨vs, r, hvs, hcall, rfl⟩

/-- A counted step records nothing. -/
theorem OtherCalls.of_tick (h : tick.run s = .ok () t) : OtherCalls callee s t := by
  obtain ⟨-, rfl⟩ := run_tick_eq_ok.mp h
  exact .of_events_eq rfl

/-- Iterations that each end normally and keep the invariant `I`, each calling along its own
entries, make a loop that ends normally, keeps `I`, and calls along all of them in order. -/
theorem run_iterate_calls {step : Frame → Nat → Exec (Flow × Frame)} {I : Frame → Prop}
    {X : Nat → List σ} {n : Nat}
    (hstep : ∀ j < n, ∀ fr s t res, I fr → (step fr j).run s = .ok res t →
      res.1 = .next ∧ I res.2 ∧ CallsAlong callee R (X j) s t) :
    ∀ left i fr s t res, i + left = n → I fr → (iterate step fr i left).run s = .ok res t →
      res.1 = .next ∧ I res.2 ∧ CallsAlong callee R ((List.range' i left).flatMap X) s t := by
  intro left
  induction left with
  | zero =>
      intro i fr s t res _ hI h
      simp only [iterate] at h
      obtain ⟨rfl, rfl⟩ := run_pure_eq_ok.mp h
      exact ⟨rfl, hI, .done (.refl _)⟩
  | succ left ih =>
      intro i fr s t res hn hI h
      simp only [iterate] at h
      obtain ⟨⟨flow, fr'⟩, u, hone, h⟩ := run_bind_eq_ok.mp h
      obtain ⟨hflow, hI', hcalls⟩ := hstep i (by omega) fr s u _ hI hone
      cases hflow
      obtain ⟨hflow, hI'', hrest⟩ := ih (i + 1) fr' u t res (by omega) hI' h
      refine ⟨hflow, hI'', ?_⟩
      rw [List.range'_succ, List.flatMap_cons]
      exact hcalls.append hrest

/-- A level of a loop nest runs its body once for each index below its extent, one after the
other: `n` times when its bound reads `n`, once when it has no loop. Each run starts from the
frame the previous one left, with the loop variable set to the index. -/
theorem run_block_around {d : Option (Nat × Operand)} {body : List Inst} (hbody : body ≠ [])
    {I : Frame → Prop} {n : Nat} {X : Nat → List σ}
    (hone : d = none → n = 1)
    (hbound : ∀ fr v b, I fr → d = some (v, b) → fr.value? b = some (.int n))
    (hstep : ∀ j < n, ∀ fr s t res, I fr → (block callFn (fr.enter d j) body).run s = .ok res t →
      res.1 = .next ∧ I res.2 ∧ CallsAlong callee R (X j) s t)
    (hI : I fr) (h : (block callFn fr (Inst.around d body)).run s = .ok res t) :
    res.1 = .next ∧ I res.2 ∧ CallsAlong callee R ((List.range n).flatMap X) s t := by
  cases d with
  | none =>
      obtain rfl := hone rfl
      obtain ⟨hflow, hI', hcalls⟩ := hstep 0 Nat.zero_lt_one fr s t res hI h
      refine ⟨hflow, hI', ?_⟩
      simpa using hcalls
  | some loop =>
      obtain ⟨v, b⟩ := loop
      obtain ⟨u, flow, fr', u', htick, hinst, hrest⟩ := run_block_cons_eq_ok h
      simp only [inst] at hinst
      obtain ⟨k, u₁, hk, hinst⟩ := run_bind_eq_ok.mp hinst
      obtain ⟨hkv, rfl⟩ := Frame.run_int_eq_ok.mp hk
      rw [hbound fr v b hI rfl, Option.some.injEq, Value.int.injEq] at hkv
      subst hkv
      have hne : body.isEmpty = false := List.isEmpty_eq_false_iff.mpr hbody
      simp only [hne, Bool.false_eq_true, if_false] at hinst
      have hloop : flow = .next ∧ I fr' ∧ CallsAlong callee R ((List.range' 0 n).flatMap X) u₁ u' :=
        run_iterate_calls (I := I) (X := X) (n := n) (R := R)
          (fun j hj fr s t res hI h => hstep j hj fr s t res hI h) n 0 fr u₁ u' (flow, fr')
          (Nat.zero_add n) hI hinst
      obtain ⟨hflow, hI', hcalls⟩ := hloop
      cases hflow
      rcases hrest with ⟨h, -⟩ | ⟨-, hrest⟩
      · cases h
      · obtain ⟨rfl, rfl⟩ := run_block_nil_eq_ok.mp hrest
        refine ⟨rfl, hI', ?_⟩
        rw [List.range_eq_range']
        exact CallsAlong.other_left (OtherCalls.of_tick htick) hcalls

/-- A block of one call of `callee` that keeps no result calls it once, on its arguments'
values, from the machine it started in with one more step counted. -/
theorem run_block_call_single {fuel : Nat} {os : List Operand} {vs : List Value} {x : σ}
    (hvs : os.mapM fr.value? = some vs) (hR : R vs { s with steps := s.steps + 1 } x)
    (h : (block (call fuel) fr [.call none callee os]).run s = .ok res t) :
    res = (.next, fr) ∧ CallsAlong callee R [x] s t := by
  obtain ⟨u, flow, fr', u', htick, hinst, hrest⟩ := run_block_cons_eq_ok h
  obtain ⟨vs', r, hvs', hcall, hres⟩ := run_inst_call_none_eq_ok hinst
  cases hres
  rw [hvs, Option.some.injEq] at hvs'
  subst hvs'
  have hother : OtherCalls callee s _ := OtherCalls.of_tick htick
  obtain ⟨-, rfl⟩ := run_tick_eq_ok.mp htick
  rcases hrest with ⟨h, -⟩ | ⟨-, hrest⟩
  · cases h
  · obtain ⟨rfl, rfl⟩ := run_block_nil_eq_ok.mp hrest
    exact ⟨rfl, CallsAlong.other_left hother (CallsAlong.single hR hcall)⟩

/-- A block that calls `callee` once, keeping no result, and returns calls it once, on its
arguments' values. -/
theorem run_block_call_ret {fuel : Nat} {os : List Operand} {vs : List Value} {x : σ}
    (hvs : os.mapM fr.value? = some vs) (hR : R vs { s with steps := s.steps + 1 } x)
    (h : (block (call fuel) fr [.call none callee os, .ret]).run s = .ok res t) :
    CallsAlong callee R [x] s t := by
  -- the call ends normally, so the return runs after it
  have h' : (block (call fuel) fr ([.call none callee os] ++ [.ret])).run s = .ok res t := h
  obtain ⟨flow, fr', u, hcall, hrest⟩ := run_block_append_eq_ok h'
  obtain ⟨hflow, hcalls⟩ := run_block_call_single hvs hR hcall
  cases hflow
  rcases hrest with ⟨h', -⟩ | ⟨-, hret⟩
  · cases h'
  · obtain ⟨-, hev⟩ := run_block_ret_eq_ok hret
    exact hcalls.other_right (OtherCalls.of_events_eq hev)

section Nest

open KernelLaunch.Frame

variable {fuel : Nat} {dz dy dx : Option (Nat × Operand)} {lead : List Operand}
  {leadVals args : List Value} {regs : List (Nat × Value)} {ext : Dims3}

/-- The work-item nest: levels for `z`, `y` and `x`, outermost first, around one call of `callee`
whose last three arguments are the indices of the three levels. Its run calls `callee` once per
point of the box of the levels' extents, in launch order, each time with the leading arguments'
values and the point. -/
theorem run_block_nest_call
    (hz : Extent args regs dz ext.z) (hy : Extent args regs dy ext.y)
    (hx : Extent args regs dx ext.x) (hfz : FreshFor regs dz)
    (hfy : ∀ z, FreshFor (bindings dz z ++ regs) dy)
    (hfx : ∀ z y, FreshFor (bindings dy y ++ (bindings dz z ++ regs)) dx)
    (hlead : ∀ fr : Frame, fr.Holds args regs → lead.mapM fr.value? = some leadVals)
    (hI : fr.Holds args regs)
    (h : (block (call fuel) fr (Inst.around dz (Inst.around dy (Inst.around dx
      [.call none callee (lead ++ [Inst.index dx, Inst.index dy, Inst.index dz])])))).run s =
        .ok res t) :
    res.1 = .next ∧ res.2.Holds args regs ∧
      CallsAlong callee (fun a _ p => a = leadVals ++ [.int p.x, .int p.y, .int p.z]) ext.box s t := by
  have hz1 : ∀ z < ext.z, dz = none → z = 0 := fun z hz' hd => by have := hz.1 hd; omega
  have hy1 : ∀ y < ext.y, dy = none → y = 0 := fun y hy' hd => by have := hy.1 hd; omega
  have hx1 : ∀ x < ext.x, dx = none → x = 0 := fun x hx' hd => by have := hx.1 hd; omega
  -- innermost level: one call per index of `x`, the frame holding all three indices
  have stepX : ∀ z < ext.z, ∀ y < ext.y, ∀ x < ext.x, ∀ (fr : Frame) s t res,
      fr.Holds args (bindings dy y ++ (bindings dz z ++ regs)) →
      (block (call fuel) (fr.enter dx x)
        [.call none callee (lead ++ [Inst.index dx, Inst.index dy, Inst.index dz])]).run s =
          .ok res t →
      res.1 = .next ∧ res.2.Holds args (bindings dy y ++ (bindings dz z ++ regs)) ∧
        CallsAlong callee (fun a _ (p : Dims3) => a = leadVals ++ [.int p.x, .int p.y, .int p.z])
          [⟨x, y, z⟩] s t := by
    intro z hz' y hy' x hx' fr s t res hfr h
    have hin := hfr.enter dx x (hfx z y)
    have hargs : (lead ++ [Inst.index dx, Inst.index dy, Inst.index dz]).mapM
        (fr.enter dx x).value? = some (leadVals ++ [.int x, .int y, .int z]) := by
      have hl := hlead _ (hin.mono fun q hq => by simp [hq])
      have hix := hin.value?_index (fun q hq => by simp [hq]) (hx1 x hx')
      have hiy := hin.value?_index (fun q hq => by simp [hq]) (hy1 y hy')
      have hiz := hin.value?_index (fun q hq => by simp [hq]) (hz1 z hz')
      simp [List.mapM_append, hl, hix, hiy, hiz]
    obtain ⟨rfl, hcalls⟩ := run_block_call_single (x := (⟨x, y, z⟩ : Dims3))
      (R := fun a _ (p : Dims3) => a = leadVals ++ [.int p.x, .int p.y, .int p.z]) hargs
      rfl h
    exact ⟨rfl, hin.mono (List.subset_append_right _ _), hcalls⟩
  -- middle level: a row of calls per index of `y`
  have stepY : ∀ z < ext.z, ∀ y < ext.y, ∀ (fr : Frame) s t res, fr.Holds args (bindings dz z ++ regs) →
      (block (call fuel) (fr.enter dy y) (Inst.around dx
        [.call none callee (lead ++ [Inst.index dx, Inst.index dy, Inst.index dz])])).run s =
          .ok res t →
      res.1 = .next ∧ res.2.Holds args (bindings dz z ++ regs) ∧
        CallsAlong callee (fun a _ (p : Dims3) => a = leadVals ++ [.int p.x, .int p.y, .int p.z])
          ((List.range ext.x).map fun x => ⟨x, y, z⟩) s t := by
    intro z hz' y hy' fr s t res hfr h
    obtain ⟨hflow, hout, hcalls⟩ := run_block_around (List.cons_ne_nil _ _) hx.1
      (hx.mono fun q hq => by simp [hq]).2 (stepX z hz' y hy') (hfr.enter dy y (hfy z)) h
    refine ⟨hflow, hout.mono (List.subset_append_right _ _), ?_⟩
    rwa [List.map_eq_flatMap]
  -- outer level: a plane of calls per index of `z`
  have stepZ : ∀ z < ext.z, ∀ (fr : Frame) s t res, fr.Holds args regs →
      (block (call fuel) (fr.enter dz z) (Inst.around dy (Inst.around dx
        [.call none callee (lead ++ [Inst.index dx, Inst.index dy, Inst.index dz])]))).run s =
          .ok res t →
      res.1 = .next ∧ res.2.Holds args regs ∧
        CallsAlong callee (fun a _ (p : Dims3) => a = leadVals ++ [.int p.x, .int p.y, .int p.z])
          ((List.range ext.y).flatMap fun y => (List.range ext.x).map fun x => ⟨x, y, z⟩) s t := by
    intro z hz' fr s t res hfr h
    obtain ⟨hflow, hout, hcalls⟩ := run_block_around
      (Inst.around_ne_nil dx (List.cons_ne_nil _ _)) hy.1 (hy.mono fun q hq => by simp [hq]).2
      (stepY z hz') (hfr.enter dz z hfz) h
    exact ⟨hflow, hout.mono (List.subset_append_right _ _), hcalls⟩
  exact run_block_around (Inst.around_ne_nil dy (Inst.around_ne_nil dx (List.cons_ne_nil _ _)))
    hz.1 hz.2 stepZ hI h

end Nest

end Machine

end KernelLaunch
