import KernelLaunch.Proofs.Interp.Exec
/-!
# Calls of one function along a run

A launcher's job is to call a body: once per local id, once per group, once per invocation. The
relation `CallsAlong body R xs s t` says what such a run does, from the machine `s` to the
machine `t`: it calls `body` once for each entry of `xs`, in order; each call runs to its end
from the machine it starts from, and its arguments and that machine are related to the entry by
`R`; between the calls the run records only calls of other functions (`OtherCalls`). Calls that
a body itself makes are part of that body's call and are not counted.

Runs compose: `CallsAlong.append` joins two runs, and the `other_left` and `other_right` lemmas
absorb the launcher's own steps before and after.
-/

namespace KernelLaunch

namespace Machine

/-- Between `s` and `t` the machine recorded only calls, none of them of `body`. -/
def OtherCalls (body : String) (s t : Machine) : Prop :=
  ∃ calls : List (String × List Value), (∀ c ∈ calls, c.1 ≠ body) ∧
    t.events.toList = s.events.toList ++ calls.map fun c => .call c.1 c.2

/-- The run from `s` to `t` calls `body` once for each entry of `xs`, in order. Each call runs to
its end, and its arguments and the machine it starts from are related to its entry by `R`;
between the calls the run records only calls of other functions. -/
inductive CallsAlong {σ : Type} (body : String) (R : List Value → Machine → σ → Prop) :
    List σ → Machine → Machine → Prop
  | done {s t : Machine} : OtherCalls body s t → CallsAlong body R [] s t
  | call {s u u' t : Machine} {x : σ} {xs : List σ} {args : List Value} {fuel : Nat}
      {r : Option Value} :
      OtherCalls body s u → R args u x → (call fuel body args).run u = .ok r u' →
      CallsAlong body R xs u' t → CallsAlong body R (x :: xs) s t

/-- The arguments of the calls of `body` among the events, in order. -/
def callsOf (body : String) (es : List Event) : List (List Value) :=
  es.filterMap fun
    | .call f a => if f = body then some a else none
    | _ => none

@[simp] theorem callsOf_nil (body : String) : callsOf body [] = [] := rfl

@[simp] theorem callsOf_append (body : String) (es es' : List Event) :
    callsOf body (es ++ es') = callsOf body es ++ callsOf body es' :=
  List.filterMap_append

@[simp] theorem callsOf_call_self (body : String) (a : List Value) :
    callsOf body [.call body a] = [a] := by
  simp [callsOf]

variable {body : String} {s t u : Machine}

namespace OtherCalls

/-- A step that records no event calls nothing. -/
theorem of_events_eq (h : t.events = s.events) : OtherCalls body s t :=
  ⟨[], by simp, by simp [h]⟩

theorem refl (s : Machine) : OtherCalls body s s := of_events_eq rfl

theorem trans (h₁ : OtherCalls body s u) (h₂ : OtherCalls body u t) : OtherCalls body s t := by
  obtain ⟨c₁, hc₁, he₁⟩ := h₁
  obtain ⟨c₂, hc₂, he₂⟩ := h₂
  refine ⟨c₁ ++ c₂, ?_, ?_⟩
  · intro c hc
    rcases List.mem_append.mp hc with hc | hc
    · exact hc₁ c hc
    · exact hc₂ c hc
  · rw [he₂, he₁, List.map_append, List.append_assoc]

/-- A step that records one call of another function calls only that function. -/
theorem of_events_push {f : String} {a : List Value} (h : t.events = s.events.push (.call f a))
    (hf : f ≠ body) : OtherCalls body s t :=
  ⟨[(f, a)], by simpa using hf, by simp [h]⟩

/-- A run that calls only other functions adds to the events and calls nothing of `body`. -/
theorem prefix_callsOf (h : OtherCalls body s t) :
    s.events.toList <+: t.events.toList ∧ callsOf body (t.events.toList.drop s.events.size) = [] := by
  obtain ⟨calls, hcalls, he⟩ := h
  rw [he]
  refine ⟨List.prefix_append _ _, ?_⟩
  rw [← Array.length_toList, List.drop_left]
  simp only [callsOf, List.filterMap_map, List.filterMap_eq_nil_iff]
  intro c hc
  simp [hcalls c hc]

end OtherCalls

namespace CallsAlong

variable {σ : Type} {R : List Value → Machine → σ → Prop} {xs ys : List σ}

theorem other_left (h₁ : OtherCalls body s u) (h₂ : CallsAlong body R xs u t) :
    CallsAlong body R xs s t := by
  cases h₂ with
  | done h => exact .done (h₁.trans h)
  | call h hR hcall hrest => exact .call (h₁.trans h) hR hcall hrest

theorem other_right (h₁ : CallsAlong body R xs s u) (h₂ : OtherCalls body u t) :
    CallsAlong body R xs s t := by
  induction h₁ with
  | done h => exact .done (h.trans h₂)
  | call h hR hcall _ ih => exact .call h hR hcall (ih h₂)

/-- Two runs one after the other make the calls of the first, then those of the second. -/
theorem append (h₁ : CallsAlong body R xs s u) (h₂ : CallsAlong body R ys u t) :
    CallsAlong body R (xs ++ ys) s t := by
  induction h₁ with
  | done h => exact other_left h h₂
  | call h hR hcall _ ih => exact .call h hR hcall (ih h₂)

/-- One call of the body, related to its entry, is a run along that entry. -/
theorem single {x : σ} {args : List Value} {fuel : Nat} {r : Option Value} (hR : R args s x)
    (hcall : (Machine.call fuel body args).run s = .ok r t) : CallsAlong body R [x] s t :=
  .call (.refl s) hR hcall (.done (.refl t))

/-- A run along `xs` is also a run along `xs` for every weaker relation. -/
theorem mono {R' : List Value → Machine → σ → Prop} (hR : ∀ a v x, R a v x → R' a v x)
    (h : CallsAlong body R xs s t) : CallsAlong body R' xs s t := by
  induction h with
  | done h => exact .done h
  | call h hR' hcall _ ih => exact .call h (hR _ _ _ hR') hcall ih

/-- A run along `xs` is also a run along `xs` for every relation that holds wherever the first does
at an entry of `xs`. -/
theorem mono_mem {R' : List Value → Machine → σ → Prop} (h : CallsAlong body R xs s t)
    (hR : ∀ a v x, x ∈ xs → R a v x → R' a v x) : CallsAlong body R' xs s t := by
  induction h with
  | done h => exact .done h
  | call h hR' hcall _ ih =>
      exact .call h (hR _ _ _ List.mem_cons_self hR') hcall
        (ih fun a v x hx => hR a v x (List.mem_cons_of_mem _ hx))

/-- Runs for consecutive indices, joined, are a run along their entries in order. -/
theorem flatMap_range' {X : Nat → List σ} {states : Nat → Machine} (i : Nat) :
    ∀ n, (∀ j, i ≤ j → j < i + n → CallsAlong body R (X j) (states j) (states (j + 1))) →
      CallsAlong body R ((List.range' i n).flatMap X) (states i) (states (i + n))
  | 0, _ => .done (.refl _)
  | n + 1, h => by
      rw [List.range'_succ, List.flatMap_cons]
      have hrest := flatMap_range' (i + 1) n fun j hj hjn => h j (by omega) (by omega)
      rw [show i + (n + 1) = i + 1 + n by omega]
      exact append (h i (Nat.le_refl i) (by omega)) hrest

end CallsAlong

end Machine

end KernelLaunch
