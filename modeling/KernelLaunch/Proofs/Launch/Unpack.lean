import KernelLaunch.Proofs.Launch.Run
/-!
# Unpacking an argument buffer

An argument-buffer launcher reads each slot of the buffer into a register and calls the launcher
it delegates to with the values read and the context. Reading a slot is a load, or an allocation
of private or local memory with a copy or a size read before it, so it only sets registers and
adds regions (`run_block_slotCode`); the slots are read in turn (`run_block_codeOf`). The calls
`run_block_delegate` counts are therefore those of the one call of the inner launcher, made from
a machine that has every region and word the delegating launcher started with.
-/

namespace KernelLaunch

open Machine KernelLaunch.Frame

namespace LauncherGen

variable {g : LauncherGen}

/-- A register that was set stays set whatever register is set next. -/
theorem isSome_reg?_bind {fr : Frame} {r d : Nat} (v : Value) (h : (fr.reg? r).isSome ∨ r = d) :
    ((fr.bind d v).reg? r).isSome := by
  by_cases hr : r = d
  · simp [hr]
  · rw [reg?_bind_ne fr v hr]
    exact h.resolve_right hr

section Steps

variable {fuel : Nat} {fr : Frame} {rest : List Inst} {s t : Machine} {res : Flow × Frame}

/-- A block that starts with a load reads the pointer operand, loads the value from it moved by
the offset without changing the machine, and runs the rest with the destination set. -/
theorem run_block_load_cons {d : Nat} {ty : Ty} {src : Operand} {off : Nat} {rng : Option ValueRange}
    (h : (block (call fuel) fr (.load d ty src off rng :: rest)).run s = .ok res t) :
    ∃ q v, fr.value? src = some (.ptr q) ∧
      (loadValue fr.func.name ty (q.add off)).run { s with steps := s.steps + 1 } =
        .ok v { s with steps := s.steps + 1 } ∧
      (block (call fuel) (fr.bind d v) rest).run { s with steps := s.steps + 1 } = .ok res t := by
  obtain ⟨fr', u, hinst, hrest⟩ := run_block_cons_next (fun _ _ _ _ h => by
    obtain ⟨_, _, -, -, hres⟩ := run_inst_load_eq_ok h
    exact congrArg Prod.fst hres) h
  obtain ⟨q, v, hq, hv, hres⟩ := run_inst_load_eq_ok hinst
  cases hres
  obtain rfl := state_of_run_loadValue hv
  exact ⟨q, v, hq, hv, hrest⟩

/-- A block that starts with an allocation reads the size operand, adds a zeroed region of that
size, and runs the rest with the destination pointing at the region's start. -/
theorem run_block_alloca_cons {d sp al : Nat} {size : Operand}
    (h : (block (call fuel) fr (.alloca d sp size al :: rest)).run s = .ok res t) :
    ∃ n, fr.value? size = some (.int n) ∧
      (block (call fuel) (fr.bind d (.ptr ⟨s.regions.size, 0⟩)) rest).run
        { s with steps := s.steps + 1, regions := s.regions.push (Region.zeroed sp n) } = .ok res t := by
  obtain ⟨fr', u, hinst, hrest⟩ := run_block_cons_next (fun _ _ _ _ h => by
    obtain ⟨_, -, -, hres⟩ := run_inst_alloca_eq_ok h
    exact congrArg Prod.fst hres) h
  obtain ⟨n, hn, rfl, hres⟩ := run_inst_alloca_eq_ok hinst
  cases hres
  exact ⟨n, hn, hrest⟩

/-- A block that starts with a copy reads the bytes at the source moved by the offset, writes them
at the destination, and runs the rest. -/
theorem run_block_memcpy_cons {dst src : Operand} {off len : Nat}
    (h : (block (call fuel) fr (.memcpy dst src off len :: rest)).run s = .ok res t) :
    ∃ dp sp data r, fr.value? dst = some (.ptr dp) ∧ fr.value? src = some (.ptr sp) ∧
      (readBytes (sp.add off) len).run { s with steps := s.steps + 1 } =
        .ok data { s with steps := s.steps + 1 } ∧
      s.regions[dp.region]? = some r ∧
      (block (call fuel) fr rest).run
        { s with steps := s.steps + 1, regions := s.regions.set! dp.region (r.write dp.offset data) } = .ok res t := by
  obtain ⟨fr', u, hinst, hrest⟩ := run_block_cons_next (fun _ _ _ _ h => by
    obtain ⟨_, _, _, _, -, -, -, -, -, hres⟩ := run_inst_memcpy_eq_ok h
    exact congrArg Prod.fst hres) h
  obtain ⟨dp, sp, data, r, hdp, hsp, hread, hr, rfl, hres⟩ := run_inst_memcpy_eq_ok hinst
  cases hres
  exact ⟨dp, sp, data, r, hdp, hsp, hread, hr, hrest⟩

end Steps

/-- Reading one slot of the argument buffer sets the slot's register, keeps every register that
was set, and only grows the machine: a copy goes into the region it allocates. -/
theorem run_block_slotCode {fuel : Nat} {sl : ArgSlot} {next : Nat} {rest : List Inst} {fr : Frame}
    {s t : Machine} {res : Flow × Frame}
    (h : (block (call fuel) fr ((g.slotCode sl next).1 ++ rest)).run s = .ok res t) :
    ∃ fr' u, fr'.args = fr.args ∧ (∀ r, (fr.reg? r).isSome → (fr'.reg? r).isSome) ∧
      (fr'.reg? (g.slotCode sl next).2).isSome ∧ Grows s u ∧ (block (call fuel) fr' rest).run u = .ok res t := by
  have hload : ∀ {d ty src off rng} {fr : Frame} {s : Machine} {rest : List Inst},
      (block (call fuel) fr (.load d ty src off rng :: rest)).run s = .ok res t →
      ∃ v u, Grows s u ∧ (block (call fuel) (fr.bind d v) rest).run u = .ok res t := by
    intro d ty src off rng fr s rest h
    obtain ⟨q, v, -, -, hrest⟩ := run_block_load_cons h
    exact ⟨v, _, grows_steps s, hrest⟩
  have halloca : ∀ {d sp size al} {fr : Frame} {s : Machine} {rest : List Inst},
      (block (call fuel) fr (.alloca d sp size al :: rest)).run s = .ok res t →
      ∃ u, Grows s u ∧ s.regions.size < u.regions.size ∧
        (block (call fuel) (fr.bind d (.ptr ⟨s.regions.size, 0⟩)) rest).run u = .ok res t := by
    intro d sp size al fr s rest h
    obtain ⟨n, -, hrest⟩ := run_block_alloca_cons h
    exact ⟨_, (grows_steps s).trans (.push _ _), by simp, hrest⟩
  have hmemcpy : ∀ {d src off len} {fr : Frame} {s₀ s : Machine} {rest : List Inst} {k : Nat},
      fr.reg? d = some (.ptr ⟨k, 0⟩) → s₀.regions.size ≤ k → Grows s₀ s →
      (block (call fuel) fr (.memcpy (.reg d) src off len :: rest)).run s = .ok res t →
      ∃ u, Grows s₀ u ∧ (block (call fuel) fr rest).run u = .ok res t := by
    intro d src off len fr s₀ s rest k hd hk hs h
    obtain ⟨dp, -, data, r, hdp, -, -, -, hrest⟩ := run_block_memcpy_cons h
    rw [value?_reg, hd, Option.some.injEq, Value.ptr.injEq] at hdp
    subst hdp
    exact ⟨_, (hs.trans (grows_steps s)).set hk _, hrest⟩
  -- each kind of slot is one load, or an allocation with a copy or a load before it
  unfold slotCode at h ⊢
  rcases hkind : sl.kind with _ | _ | _ | ⟨_ | _⟩ <;> simp only [hkind] at h ⊢
  · obtain ⟨v, u, hu, hrest⟩ := hload h
    exact ⟨fr.bind next v, u, rfl, fun r hr => isSome_reg?_bind v (.inl hr), by simp, hu, hrest⟩
  · obtain ⟨v, u, hu, hrest⟩ := hload h
    exact ⟨fr.bind next v, u, rfl, fun r hr => isSome_reg?_bind v (.inl hr), by simp, hu, hrest⟩
  · obtain ⟨u, hu, -, hrest⟩ := halloca h
    obtain ⟨u', hu', hrest'⟩ := hmemcpy (by simp) (le_refl _) hu hrest
    exact ⟨fr.bind next (.ptr ⟨s.regions.size, 0⟩), u', rfl, fun r hr => isSome_reg?_bind _ (.inl hr),
      by simp, hu', hrest'⟩
  · obtain ⟨v, u, hu, hrest⟩ := hload h
    exact ⟨fr.bind next v, u, rfl, fun r hr => isSome_reg?_bind v (.inl hr), by simp, hu, hrest⟩
  · obtain ⟨v, u, hu, hrest⟩ := hload h
    obtain ⟨u', hu', -, hrest'⟩ := halloca hrest
    exact ⟨(fr.bind next v).bind (next + 1) (.ptr ⟨u.regions.size, 0⟩), u', rfl,
      fun r hr => isSome_reg?_bind _ (.inl (isSome_reg?_bind v (.inl hr))), by simp, hu.trans hu', hrest'⟩

theorem length_codeOf {α : Type} (code : α → Nat → List Inst × Nat) :
    ∀ (xs : List α) (next : Nat), (codeOf code xs next).2.length = xs.length
  | [], _ => rfl
  | x :: xs, next => by
      simp only [codeOf, List.length_cons, length_codeOf code xs]

/-- Reading the slots of the argument buffer in turn sets the register of every slot, keeps every
register that was set, and only grows the machine. -/
theorem run_block_codeOf {fuel : Nat} : ∀ (slots : List ArgSlot) (next : Nat) {rest : List Inst}
    {fr : Frame} {s t : Machine} {res : Flow × Frame},
    (block (call fuel) fr ((codeOf g.slotCode slots next).1 ++ rest)).run s = .ok res t →
    ∃ fr' u, fr'.args = fr.args ∧ (∀ r, (fr.reg? r).isSome → (fr'.reg? r).isSome) ∧
      (∀ r ∈ (codeOf g.slotCode slots next).2, (fr'.reg? r).isSome) ∧ Grows s u ∧
      (block (call fuel) fr' rest).run u = .ok res t
  | [], _, _, fr, s, _, _, h => ⟨fr, s, rfl, fun _ hr => hr, by simp [codeOf], .refl s, h⟩
  | sl :: slots, next, rest, fr, s, res, t, h => by
      simp only [codeOf, List.append_assoc] at h ⊢
      obtain ⟨fr₁, u₁, ha₁, hk₁, hr₁, hu₁, h₁⟩ := run_block_slotCode h
      obtain ⟨fr₂, u₂, ha₂, hk₂, hr₂, hu₂, h₂⟩ := run_block_codeOf slots _ h₁
      refine ⟨fr₂, u₂, ha₂.trans ha₁, fun r hr => hk₂ r (hk₁ r hr), ?_, hu₁.trans hu₂, h₂⟩
      intro r hr
      rcases List.mem_cons.mp hr with rfl | hr
      · exact hk₂ _ hr₁
      · exact hr₂ r hr

/-- Registers that are all set read as values, one each. -/
theorem mapM_value?_regs {fr : Frame} :
    ∀ rs : List Nat, (∀ r ∈ rs, (fr.reg? r).isSome) →
      ∃ vs, (rs.map Operand.reg).mapM fr.value? = some vs ∧ vs.length = rs.length
  | [], _ => ⟨[], rfl, rfl⟩
  | r :: rs, h => by
      obtain ⟨v, hv⟩ := Option.isSome_iff_exists.mp (h r (List.mem_cons_self ..))
      obtain ⟨vs, hvs, hlen⟩ := mapM_value?_regs rs fun r' hr' => h r' (List.mem_cons_of_mem _ hr')
      refine ⟨v :: vs, ?_, by simp [hlen]⟩
      simp [hv, hvs]

/-- The end of an argument-buffer launcher: one call of the launcher it delegates to, with the
values of the slot registers and the context, then the return. Its run calls `callee` as that
call does. -/
theorem run_block_delegate_tail {σ : Type} {callee : String} {R : List Value → Machine → σ → Prop}
    {xs : List σ} {fuel : Nat} {launcher : String} {regs : List Nat} {vs : List Value} {fr : Frame}
    {buf ctx : Pointer} {u t : Machine} {res : Flow × Frame}
    (hvs : (regs.map Operand.reg).mapM fr.value? = some vs) (hargs : fr.args = [.ptr buf, .ptr ctx])
    (hinner : ∀ r u', (call fuel launcher (vs ++ [.ptr ctx])).run { u with steps := u.steps + 1 } = .ok r u' →
      CallsAlong callee R xs { u with steps := u.steps + 1 } u')
    (h : (block (call fuel) fr [.call none launcher (regs.map Operand.reg ++ [.param 1]), .ret]).run u = .ok res t) :
    CallsAlong callee R xs u t := by
  obtain ⟨u₁, flow, fr', u₂, htick, hinst, hrest⟩ := run_block_cons_eq_ok h
  obtain ⟨-, rfl⟩ := run_tick_eq_ok.mp htick
  obtain ⟨vs', r, hvs', hcall, hres⟩ := run_inst_call_none_eq_ok hinst
  cases hres
  have hops : (regs.map Operand.reg ++ [Operand.param 1]).mapM fr.value? = some (vs ++ [.ptr ctx]) := by
    rw [List.mapM_append, hvs]
    simp [hargs]
  rw [hops, Option.some.injEq] at hvs'
  subst hvs'
  rcases hrest with ⟨h', -⟩ | ⟨-, hret⟩
  · cases h'
  · obtain ⟨-, hev⟩ := run_block_ret_eq_ok hret
    exact CallsAlong.other_left (OtherCalls.of_events_eq (t := { u with steps := u.steps + 1 }) rfl)
      ((hinner r u₂ hcall).other_right (OtherCalls.of_events_eq hev))

/-- An argument-buffer launcher reads every slot of the buffer, growing the machine only, and
calls the launcher it delegates to once, with a value per slot and the context. Its run calls
`callee` as that call does, for the relation the values of the call pick. -/
theorem run_block_delegate {σ : Type} {callee : String} {R : List Value → List Value → Machine → σ → Prop}
    {xs : List σ} {fuel : Nat} {kind : LauncherKind} {l : ArgBufferLayout} {launcher : String}
    {f : Function} {log : Log} {insts : List Inst} {buf ctx : Pointer} {s t : Machine}
    {res : Flow × Frame}
    (hgen : g.generate ⟨kind, .buffer, .unpack l, .delegate launcher⟩ = .ok (f, log))
    (hinsts : f.body = some insts)
    (hinner : ∀ vs u r u', vs.length = l.slots.length → Grows s u →
      (call fuel launcher (vs ++ [.ptr ctx])).run u = .ok r u' → CallsAlong callee (R vs) xs u u')
    (h : (block (call fuel) { func := f, args := [.ptr buf, .ptr ctx] } insts).run s = .ok res t) :
    ∃ vs, vs.length = l.slots.length ∧ CallsAlong callee (R vs) xs s t := by
  obtain ⟨-, -, hbody⟩ := generate_delegate_eq_ok hgen
  rw [hinsts, Option.some.injEq] at hbody
  subst hbody
  obtain ⟨fr, u, hargs, -, hregs, hu, hrun⟩ := run_block_codeOf l.slots 0 h
  obtain ⟨vs, hvs, hlen⟩ := mapM_value?_regs _ hregs
  have hlen' : vs.length = l.slots.length := by rw [hlen, length_codeOf]
  exact ⟨vs, hlen', CallsAlong.other_left (OtherCalls.of_events_eq hu.events)
    (run_block_delegate_tail hvs hargs (fun r u' => hinner vs _ r u' hlen' (hu.trans (grows_steps u))) hrun)⟩

/-- A call of an argument-buffer launcher, found under its name, calls `callee` as its one call of
the inner launcher does, made from a machine grown from the one the launcher's body started in,
for the relation the values of that call pick. -/
theorem call_delegate {σ : Type} {callee : String} {R : List Value → List Value → Machine → σ → Prop}
    {xs : List σ} {fuel : Nat} {kind : LauncherKind} {l : ArgBufferLayout} {name launcher : String}
    {f : Function} {log : Log} {buf ctx : Pointer} {s t : Machine} {r : Option Value}
    (hf : s.module.get? name = some f)
    (hgen : g.generate ⟨kind, .buffer, .unpack l, .delegate launcher⟩ = .ok (f, log))
    (hne : name ≠ callee)
    (hinner : ∀ fuel vs u r u', vs.length = l.slots.length →
      Grows { s with events := s.events.push (.call name [.ptr buf, .ptr ctx]), depth := s.depth + 1 } u →
      (call fuel launcher (vs ++ [.ptr ctx])).run u = .ok r u' → CallsAlong callee (R vs) xs u u')
    (h : (call fuel name [.ptr buf, .ptr ctx]).run s = .ok r t) :
    ∃ vs, vs.length = l.slots.length ∧ CallsAlong callee (R vs) xs s t := by
  obtain ⟨-, -, hbody⟩ := generate_delegate_eq_ok hgen
  exact CallsAlong.of_call_exists hne hf hbody
    (fun fuel' res u hrun => run_block_delegate hgen hbody (hinner fuel') hrun) h


end LauncherGen

end KernelLaunch
