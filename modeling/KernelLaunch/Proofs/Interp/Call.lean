import KernelLaunch.Proofs.Interp.Invariant
import KernelLaunch.Proofs.Interp.Trace
/-!
# Calls

What a successful call did: it recorded itself, found the function, checked the arity, and then
either asked the host, for a declaration, or ran the body one level deeper (`run_call_eq_ok`).
The host answers the local-id intrinsic with the local id it set, and zero for every other
declaration (`run_external`).

`CallsAlong.of_call` lifts a run of a launcher's body to the call of the launcher: the calls of
another function that the body makes are the calls the launcher's call makes. Every call records
itself before anything else (`events_call`), so a run along entries leaves one call per entry in
the events, in order (`CallsAlong.prefix_sublist`).
-/

namespace KernelLaunch

namespace Machine

variable {s t : Machine}

theorem run_stop_bind_ne_ok {α β : Type} {e : ExecError} {f : α → Exec β} {b : β} :
    (stop e >>= f).run s ≠ .ok b t := by
  intro h
  obtain ⟨_, _, hs, -⟩ := run_bind_eq_ok.mp h
  exact run_stop_ne_ok hs

/-- A declaration answers the local id of the dimension its first argument names when it is the
local-id intrinsic, and zero otherwise; it changes nothing. -/
theorem run_external (name : String) (args : List Value) (s : Machine) :
    (external name args).run s =
      .ok (if name = localIdIntrinsic then
        .int (s.localId.getD (match args.head? with | some (.int n) => n | _ => 0) 0) else .int 0) s := by
  unfold external
  by_cases h : name = localIdIntrinsic
  · simp only [h, beq_self_eq_true, if_true]
    rfl
  · have hb : (name == localIdIntrinsic) = false := by simpa using h
    simp only [hb, Bool.false_eq_true, if_false, h]
    rfl

/-- A successful call recorded itself and found a function of the right arity. A declaration
then answered what the host gives; a body ran to its end one level deeper, within the depth
limit, and the call answers nothing. -/
theorem run_call_eq_ok {fuel : Nat} {name : String} {args : List Value} {r : Option Value}
    (h : (call fuel name args).run s = .ok r t) :
    ∃ f, s.module.get? name = some f ∧ f.params.length = args.length ∧
      ((f.body = none ∧ t = { s with events := s.events.push (.call name args) } ∧
          r = some (if name = localIdIntrinsic then
            .int (s.localId.getD (match args.head? with | some (.int n) => n | _ => 0) 0) else .int 0)) ∨
        (∃ body fuel' res u, f.body = some body ∧ fuel = fuel' + 1 ∧ s.depth < maxCallDepth ∧
          (block (call fuel') { func := f, args } body).run
            { s with events := s.events.push (.call name args), depth := s.depth + 1 } = .ok res u ∧
          t = { u with depth := u.depth - 1 } ∧ r = none)) := by
  simp only [call] at h
  obtain ⟨_, s₁, hrec, h₂⟩ := run_bind_eq_ok.mp h
  rw [run_record, EStateM.Result.ok.injEq] at hrec
  obtain ⟨-, rfl⟩ := hrec
  rw [run_get_bind] at h₂
  split at h₂
  · exact absurd h₂ run_stop_ne_ok
  rename_i f hf
  refine ⟨f, hf, ?_⟩
  split at h₂
  · exact absurd h₂ run_stop_bind_ne_ok
  rename_i harity
  refine ⟨by simpa using harity, ?_⟩
  split at h₂
  · -- a declaration: the host answers
    rename_i hbody
    obtain ⟨v, u, hext, hret⟩ := run_bind_eq_ok.mp h₂
    rw [run_external, EStateM.Result.ok.injEq] at hext
    obtain ⟨rfl, rfl⟩ := hext
    obtain ⟨rfl, rfl⟩ := run_pure_eq_ok.mp hret
    exact .inl ⟨hbody, rfl, rfl⟩
  · -- a body: it runs one level deeper
    rename_i body hbody
    split at h₂
    · exact absurd h₂ run_stop_bind_ne_ok
    rename_i hdepth
    split at h₂
    · exact absurd h₂ run_stop_ne_ok
    rename_i fuel'
    obtain ⟨res, u, hrun, rfl, rfl⟩ := run_attempt_depth_eq_ok h₂
    exact .inr ⟨body, fuel', res, u, hbody, rfl, by simp only at hdepth; omega, hrun, rfl, rfl⟩

/-- A call of a function with a body whose every run calls `callee` along `xs`, for a relation
picked by that run among a family, calls `callee` along `xs` for a relation of the family, when
the function is not `callee` itself. -/
theorem CallsAlong.of_call_exists {σ ι : Type} {callee name : String} {P : ι → Prop}
    {R : ι → List Value → Machine → σ → Prop} {xs : List σ} {fuel : Nat} {args : List Value}
    {r : Option Value} {f : Function} {body : List Inst}
    (hne : name ≠ callee) (hf : s.module.get? name = some f) (hbody : f.body = some body)
    (hcalls : ∀ fuel' res u, (block (Machine.call fuel') { func := f, args } body).run
        { s with events := s.events.push (.call name args), depth := s.depth + 1 } = .ok res u →
      ∃ i, P i ∧ CallsAlong callee (R i) xs
        { s with events := s.events.push (.call name args), depth := s.depth + 1 } u)
    (h : (Machine.call fuel name args).run s = .ok r t) : ∃ i, P i ∧ CallsAlong callee (R i) xs s t := by
  obtain ⟨f', hf', -, hcase⟩ := run_call_eq_ok h
  rw [hf, Option.some.injEq] at hf'
  subst hf'
  rcases hcase with ⟨hnone, -⟩ | ⟨body', fuel', res, u, hbody', -, -, hrun, rfl, -⟩
  · rw [hbody] at hnone
    cases hnone
  · rw [hbody, Option.some.injEq] at hbody'
    subst hbody'
    obtain ⟨i, hi, hcalls⟩ := hcalls fuel' res u hrun
    exact ⟨i, hi, (CallsAlong.other_left (OtherCalls.of_events_push rfl hne) hcalls).other_right
      (OtherCalls.of_events_eq rfl)⟩

/-- A call of a function with a body whose runs call `callee` along `xs` calls `callee` along
`xs`, when the function is not `callee` itself. -/
theorem CallsAlong.of_call {σ : Type} {callee name : String} {R : List Value → Machine → σ → Prop}
    {xs : List σ} {fuel : Nat} {args : List Value} {r : Option Value} {f : Function} {body : List Inst}
    (hne : name ≠ callee) (hf : s.module.get? name = some f) (hbody : f.body = some body)
    (hcalls : ∀ fuel' res u, (block (Machine.call fuel') { func := f, args } body).run
        { s with events := s.events.push (.call name args), depth := s.depth + 1 } = .ok res u →
      CallsAlong callee R xs { s with events := s.events.push (.call name args), depth := s.depth + 1 } u)
    (h : (Machine.call fuel name args).run s = .ok r t) : CallsAlong callee R xs s t := by
  obtain ⟨-, -, hcalls⟩ := CallsAlong.of_call_exists (P := fun _ : Unit => True) (R := fun _ => R) hne hf hbody
    (fun fuel' res u hrun => ⟨(), trivial, hcalls fuel' res u hrun⟩) h
  exact hcalls

/-- A successful call first recorded itself: its events begin with the caller's and the call. -/
theorem events_call {fuel : Nat} {name : String} {args : List Value} {r : Option Value}
    (h : (call fuel name args).run s = .ok r t) :
    (s.events.push (.call name args)).toList <+: t.events.toList := by
  obtain ⟨f, -, -, hcase⟩ := run_call_eq_ok h
  rcases hcase with ⟨-, rfl, -⟩ | ⟨body, fuel', res, u, -, -, -, hrun, rfl, -⟩
  · exact List.prefix_refl _
  · exact (keeps_block (keeps_call fuel') _ _ _ res u hrun).events

/-- What a run along `xs` shows in the events: they only grow, and the calls of `body` it adds
include, in order, one call for each entry, whose arguments are related to the entry. The calls a
body makes itself are among the added ones too, which is why this is a sublist. -/
theorem CallsAlong.prefix_sublist {σ : Type} {R : List Value → Machine → σ → Prop} {xs : List σ}
    (h : CallsAlong body R xs s t) :
    s.events.toList <+: t.events.toList ∧
      ∃ argss : List (List Value), List.Forall₂ (fun a x => ∃ u, R a u x) argss xs ∧
        argss.Sublist (callsOf body (t.events.toList.drop s.events.size)) := by
  induction h with
  | done hother =>
      obtain ⟨hp, hc⟩ := hother.prefix_callsOf
      exact ⟨hp, [], .nil, by rw [hc]⟩
  | @call s u u' t x xs args fuel r hother hR hcall _ ih =>
      obtain ⟨⟨l₁, hl₁⟩, hc₁⟩ := hother.prefix_callsOf
      obtain ⟨l₂, hl₂⟩ := events_call hcall
      obtain ⟨⟨l₃, hl₃⟩, argss, hF, hsub⟩ := ih
      -- the events from `s` on: other calls, the call, what the body recorded, the rest of the run
      have ht : t.events.toList = s.events.toList ++ (l₁ ++ [.call body args] ++ l₂ ++ l₃) := by
        rw [← hl₃, ← hl₂, Array.toList_push, ← hl₁]
        simp
      have hs : s.events.size = s.events.toList.length := (Array.length_toList).symm
      have hu : u'.events.size = u'.events.toList.length := (Array.length_toList).symm
      have hl₁' : l₁ = u.events.toList.drop s.events.size := by rw [← hl₁, hs, List.drop_left]
      have hl₃' : l₃ = t.events.toList.drop u'.events.size := by rw [← hl₃, hu, List.drop_left]
      refine ⟨⟨_, ht.symm⟩, args :: argss, .cons ⟨u, hR⟩ hF, ?_⟩
      rw [ht, hs, List.drop_left, callsOf_append, callsOf_append, callsOf_append, callsOf_call_self,
        hl₁', hc₁]
      rw [← hl₃'] at hsub
      exact (hsub.trans (List.sublist_append_right _ _)).cons_cons args

end Machine

end KernelLaunch
