import KernelLaunch.Ir.CallGraph
import Mathlib.Logic.Relation
import Mathlib.Data.List.Perm.Subperm
import Mathlib.Data.List.Find
/-!
# Reachability in call graphs

The call graph of a module answers which functions a kernel reaches and which functions reach one
that prints. Both are computed by `CallGraph.reach`, a work-list search with a step budget, over
the graph that `CallGraph.build` makes one call at a time.

`mem_reach_iff` says the search answers exactly the nodes reachable from its start, when every
node's successors are distinct nodes of the graph: each step either drops a node seen before or
sees a new one, so the budget is never the reason it stops. `built_build` says what the graph is:
a node for every function and callee name, and an edge from the node of a name to the node of
each name it calls. Together they answer both questions by name (`mem_reachableFrom_build`,
`mem_reaching_build`), as paths of `Module.Calls`, which only grow when functions are appended.
-/

namespace KernelLaunch

open Relation

namespace Module

/-- Some function named `a` calls `b`. -/
def Calls (m : Module) (a b : String) : Prop := ∃ f ∈ m.functions, f.name = a ∧ b ∈ f.callees

/-- A name the call graph of the module has a node for: a function's or a callee's. -/
def IsNode (m : Module) (x : String) : Prop := (∃ f ∈ m.functions, f.name = x) ∨ ∃ a, m.Calls a x

theorem Calls.mono {m m' : Module} (hsub : m.functions ⊆ m'.functions) {a b : String} (h : m.Calls a b) :
    m'.Calls a b := by
  obtain ⟨f, hf, hrest⟩ := h
  exact ⟨f, hsub hf, hrest⟩

end Module

namespace CallGraph

section Search

variable {n : Nat} {step : Nat → List Nat}

/-- The successors of every node below `n` are distinct nodes below `n`. -/
def Bounded (n : Nat) (step : Nat → List Nat) : Prop :=
  ∀ a < n, (step a).Nodup ∧ ∀ b ∈ step a, b < n

/-- Distinct nodes below `n` are at most `n`. -/
theorem length_le_of_nodup {l : List Nat} (hd : l.Nodup) (hl : ∀ x ∈ l, x < n) : l.length ≤ n := by
  have h := (hd.subperm fun x hx => List.mem_range.mpr (hl x hx)).length_le
  rwa [List.length_range] at h

/-- The search only adds nodes reachable from what it was given. -/
theorem go_sound : ∀ (fuel : Nat) (todo seen : List Nat) {y : Nat}, y ∈ reach.go step fuel todo seen →
    y ∈ seen ∨ ∃ t ∈ todo, ReflTransGen (fun a b => b ∈ step a) t y
  | 0, todo, seen, y, h => .inl h
  | fuel + 1, [], seen, y, h => .inl h
  | fuel + 1, x :: rest, seen, y, h => by
      simp only [reach.go] at h
      split at h
      · rcases go_sound fuel rest seen h with hy | ⟨t, ht, hreach⟩
        · exact .inl hy
        · exact .inr ⟨t, List.mem_cons_of_mem _ ht, hreach⟩
      · rcases go_sound fuel (step x ++ rest) (x :: seen) h with hy | ⟨t, ht, hreach⟩
        · rcases List.mem_cons.mp hy with rfl | hy
          · exact .inr ⟨y, List.mem_cons_self, .refl⟩
          · exact .inl hy
        · rcases List.mem_append.mp ht with ht | ht
          · exact .inr ⟨x, List.mem_cons_self, ReflTransGen.head ht hreach⟩
          · exact .inr ⟨t, List.mem_cons_of_mem _ ht, hreach⟩

/-- What the search has seen stays seen. -/
theorem subset_go : ∀ (fuel : Nat) (todo seen : List Nat), ∀ y ∈ seen, y ∈ reach.go step fuel todo seen
  | 0, _, _, _, hy => hy
  | _ + 1, [], _, _, hy => hy
  | fuel + 1, x :: rest, seen, y, hy => by
      simp only [reach.go]
      split
      · exact subset_go fuel rest seen y hy
      · exact subset_go fuel (step x ++ rest) (x :: seen) y (List.mem_cons_of_mem _ hy)

/-- With enough steps left the search ends with its work list empty, holding everything it was
given, closed under successors: every node it has seen has its successors seen or still to do,
and each step either drops a node seen before or sees a new one, whose successors cost at most
`n` steps, so `todo.length + (n - seen.length) * n` steps suffice. -/
theorem go_closed (hb : Bounded n step) : ∀ (fuel : Nat) (todo seen : List Nat), seen.Nodup →
    (∀ x ∈ seen, x < n) → (∀ x ∈ todo, x < n) →
    (∀ y ∈ seen, ∀ z ∈ step y, z ∈ seen ∨ z ∈ todo) → todo.length + (n - seen.length) * n < fuel →
    (∀ y ∈ todo, y ∈ reach.go step fuel todo seen) ∧
      ∀ y ∈ reach.go step fuel todo seen, ∀ z ∈ step y, z ∈ reach.go step fuel todo seen
  | 0, _, _, _, _, _, _, hfuel => absurd hfuel (Nat.not_lt_zero _)
  | fuel + 1, [], seen, _, _, _, hclosed, _ => by
      simp only [reach.go]
      exact ⟨by simp, fun y hy z hz => (hclosed y hy z hz).resolve_right (by simp)⟩
  | fuel + 1, x :: rest, seen, hnd, hseen, htodo, hclosed, hfuel => by
      simp only [reach.go]
      split
      · -- a node seen before is dropped
        rename_i hx
        have hx : x ∈ seen := by simpa using hx
        obtain ⟨hall, hcl⟩ := go_closed hb fuel rest seen hnd hseen (fun y hy => htodo y (List.mem_cons_of_mem _ hy))
          (fun y hy z hz => by
            rcases hclosed y hy z hz with h | h
            · exact .inl h
            · rcases List.mem_cons.mp h with rfl | h
              · exact .inl hx
              · exact .inr h)
          (by simp only [List.length_cons] at hfuel; omega)
        refine ⟨fun y hy => ?_, hcl⟩
        rcases List.mem_cons.mp hy with rfl | hy
        · exact subset_go fuel rest seen y hx
        · exact hall y hy
      · -- a new node is seen and its successors are queued
        rename_i hx
        have hx : x ∉ seen := by simpa using hx
        have hxn : x < n := htodo x List.mem_cons_self
        have hlt : seen.length < n := by
          have := length_le_of_nodup (List.nodup_cons.mpr ⟨hx, hnd⟩) (fun y hy => by
            rcases List.mem_cons.mp hy with rfl | hy
            · exact hxn
            · exact hseen y hy)
          simp only [List.length_cons] at this
          omega
        have hstep : (step x).length ≤ n := length_le_of_nodup (hb x hxn).1 (hb x hxn).2
        have hmeasure : (step x ++ rest).length + (n - (x :: seen).length) * n < fuel := by
          have h₁ : (n - seen.length) * n = (n - (seen.length + 1)) * n + n := by
            rw [show n - seen.length = (n - (seen.length + 1)) + 1 by omega, Nat.succ_mul]
          simp only [List.length_cons, List.length_append] at hfuel ⊢
          omega
        obtain ⟨hall, hcl⟩ := go_closed hb fuel (step x ++ rest) (x :: seen) (List.nodup_cons.mpr ⟨hx, hnd⟩)
          (fun y hy => by
            rcases List.mem_cons.mp hy with rfl | hy
            · exact hxn
            · exact hseen y hy)
          (fun y hy => by
            rcases List.mem_append.mp hy with hy | hy
            · exact (hb x hxn).2 y hy
            · exact htodo y (List.mem_cons_of_mem _ hy))
          (fun y hy z hz => by
            rcases List.mem_cons.mp hy with rfl | hy
            · exact .inr (List.mem_append_left _ hz)
            · rcases hclosed y hy z hz with h | h
              · exact .inl (List.mem_cons_of_mem _ h)
              · rcases List.mem_cons.mp h with rfl | h
                · exact .inl List.mem_cons_self
                · exact .inr (List.mem_append_right _ h))
          hmeasure
        refine ⟨fun y hy => ?_, hcl⟩
        rcases List.mem_cons.mp hy with rfl | hy
        · exact subset_go fuel _ (y :: seen) y List.mem_cons_self
        · exact hall y (List.mem_append_right _ hy)

/-- The search answers exactly the nodes reachable from its start, when every node's successors are
distinct nodes below the node count and so is the start. -/
theorem mem_reach_iff (hb : Bounded n step) {start : List Nat} (hstart : ∀ s ∈ start, s < n) {y : Nat} :
    y ∈ reach n step start ↔ ∃ s ∈ start, ReflTransGen (fun a b => b ∈ step a) s y := by
  unfold reach
  constructor
  · intro hy
    simpa using go_sound _ start [] hy
  · rintro ⟨s, hs, hsy⟩
    obtain ⟨hall, hcl⟩ := go_closed hb ((n + 1) * (n + 1) + start.length + 1) start [] List.nodup_nil
      (by simp) hstart (by simp) (by simp [Nat.mul_add, Nat.add_mul]; omega)
    induction hsy with
    | refl => exact hall s hs
    | tail _ hbc ih => exact hcl _ ih _ hbc

end Search

/-! ## Nodes by name -/

theorem nodeOf?_some {g : CallGraph} {x : String} {i : Nat} (h : g.nodeOf? x = some i) :
    g.names[i]? = some x := by
  unfold nodeOf? at h
  simpa using List.find?_some h

theorem isSome_nodeOf? {g : CallGraph} {x : String} : (g.nodeOf? x).isSome ↔ ∃ i : Nat, g.names[i]? = some x := by
  unfold nodeOf?
  rw [List.find?_isSome]
  constructor
  · rintro ⟨i, -, hi⟩
    exact ⟨i, by simpa using hi⟩
  · rintro ⟨i, hi⟩
    have hlt : i < g.names.size := (Array.getElem?_eq_some_iff.mp hi).1
    exact ⟨i, by simp [hlt], by simp [hi]⟩

theorem nodeOf?_push (g : CallGraph) (y x : String) (s : Array (List Nat)) :
    ({ names := g.names.push y, succs := s } : CallGraph).nodeOf? x =
      if y = x then some g.names.size else g.nodeOf? x := by
  unfold nodeOf?
  simp only [Array.size_push, List.range_succ, List.reverse_append, List.reverse_cons,
    List.reverse_nil, List.nil_append, List.singleton_append, List.find?_cons, Array.getElem?_push_size]
  by_cases hxy : y = x
  · simp [hxy]
  · simp only [hxy, if_false]
    have : (some y == some x) = false := by simp [hxy]
    rw [this]
    refine List.find?_congr fun i hi => ?_
    have hlt : i < g.names.size := by simpa using hi
    rw [Array.getElem?_push_lt hlt, Array.getElem?_eq_getElem hlt]

/-- Looking a node up reads the names only. -/
@[simp] theorem nodeOf?_succs (g : CallGraph) (s : Array (List Nat)) (x : String) :
    ({ g with succs := s } : CallGraph).nodeOf? x = g.nodeOf? x := rfl

theorem lt_of_nodeOf? {g : CallGraph} {x : String} {i : Nat} (h : g.nodeOf? x = some i) : i < g.names.size :=
  (Array.getElem?_eq_some_iff.mp (nodeOf?_some h)).1

/-- One node owns each name. -/
theorem nodeOf?_inj {g : CallGraph} {x y : String} {i : Nat} (hx : g.nodeOf? x = some i)
    (hy : g.nodeOf? y = some i) : x = y := by
  have h := (nodeOf?_some hx).symm.trans (nodeOf?_some hy)
  simpa using h

/-! ## The graph of a module -/

/-- What a graph under construction keeps true, for the names `node` it has nodes for and the
calls `calls` added so far: one successor list per node, each of distinct nodes, and an edge
between the nodes of two names exactly when a call joins them. -/
structure Built (g : CallGraph) (node : String → Prop) (calls : String → String → Prop) : Prop where
  size_succs : g.succs.size = g.names.size
  nodup : ∀ i : Nat, (g.succs[i]?.getD []).Nodup
  lt : ∀ i : Nat, ∀ j ∈ g.succs[i]?.getD [], j < g.names.size
  isSome : ∀ x, (g.nodeOf? x).isSome ↔ node x
  node_of_calls : ∀ a b, calls a b → node a ∧ node b
  edge : ∀ i j : Nat, j ∈ g.succs[i]?.getD [] ↔ ∃ a b, calls a b ∧ g.nodeOf? a = some i ∧ g.nodeOf? b = some j

variable {g : CallGraph} {node : String → Prop} {calls : String → String → Prop}

theorem Built.congr {node' : String → Prop} {calls' : String → String → Prop}
    (h : Built g node calls) (hn : ∀ x, node x ↔ node' x) (hc : ∀ a b, calls a b ↔ calls' a b) :
    Built g node' calls' :=
  ⟨h.size_succs, h.nodup, h.lt, fun x => (h.isSome x).trans (hn x),
    fun a b hab => by simpa only [← hn] using h.node_of_calls a b ((hc a b).mpr hab),
    fun i j => (h.edge i j).trans (by simp only [hc])⟩

/-- A name the graph stands for has a node. -/
theorem Built.nodeOf?_of_node (h : Built g node calls) {x : String} (hx : node x) : ∃ i, g.nodeOf? x = some i :=
  Option.isSome_iff_exists.mp ((h.isSome x).mpr hx)

/-- Adding the call of `c` from the node of `a` gives `c` a node and joins the two nodes; every
node stays where it was. -/
theorem Built.addCall (h : Built g node calls) {a c : String} {src : Nat} (ha : g.nodeOf? a = some src) :
    Built (CallGraph.addCall src g c) (fun x => node x ∨ x = c) (fun x y => calls x y ∨ x = a ∧ y = c) ∧
      ∀ x i, g.nodeOf? x = some i → (CallGraph.addCall src g c).nodeOf? x = some i := by
  have hna : node a := (h.isSome a).mp (by simp [ha])
  -- first the callee gets a node, if it has none
  obtain ⟨g₁, dst, hg₁, hsize, hgrow, hsucc, hdst, hkeep, hsome⟩ : ∃ (g₁ : CallGraph) (dst : Nat),
      CallGraph.addCall src g c = (if (g₁.succs[src]?.getD []).contains dst then g₁
        else { g₁ with succs := g₁.succs.set! src (g₁.succs[src]?.getD [] ++ [dst]) }) ∧
      g₁.succs.size = g₁.names.size ∧ g.names.size ≤ g₁.names.size ∧
      (∀ i : Nat, g₁.succs[i]?.getD [] = g.succs[i]?.getD []) ∧
      g₁.nodeOf? c = some dst ∧ (∀ x i, g.nodeOf? x = some i → g₁.nodeOf? x = some i) ∧
      ∀ x, (g₁.nodeOf? x).isSome ↔ (g.nodeOf? x).isSome ∨ x = c := by
    rcases hc : g.nodeOf? c with _ | i
    · refine ⟨{ names := g.names.push c, succs := g.succs.push [] }, g.names.size,
        by simp only [KernelLaunch.CallGraph.addCall, hc], by simp [h.size_succs], by simp, fun i => ?_,
        by simp [nodeOf?_push], ?_, ?_⟩
      · rw [Array.getElem?_push]
        split
        · rename_i hi
          simp [hi]
        · rfl
      · intro x i hx
        have hcx : c ≠ x := by
          rintro rfl
          rw [hc] at hx
          cases hx
        simp [nodeOf?_push, hcx, hx]
      · intro x
        by_cases hcx : c = x
        · subst hcx
          simp [nodeOf?_push]
        · simp [nodeOf?_push, hcx, Ne.symm hcx]
    · refine ⟨g, i, by simp only [KernelLaunch.CallGraph.addCall, hc], h.size_succs, le_refl _,
        fun _ => rfl, hc, fun _ _ hx => hx, fun x => ?_⟩
      constructor
      · exact .inl
      · rintro (hx | rfl)
        · exact hx
        · simp [hc]
  have hsrc : src < g₁.succs.size := hsize ▸ lt_of_le_of_lt' hgrow (lt_of_nodeOf? ha)
  have hdst_lt : dst < g₁.names.size := lt_of_nodeOf? hdst
  -- every name a call mentions had its node before
  have hcall_node : ∀ x y, calls x y → ∀ i, g₁.nodeOf? x = some i → g.nodeOf? x = some i := by
    intro x y hxy i hi
    obtain ⟨i', hi'⟩ := h.nodeOf?_of_node (h.node_of_calls x y hxy).1
    rw [hkeep x i' hi'] at hi
    rwa [← hi]
  have hcall_node' : ∀ x y, calls x y → ∀ j, g₁.nodeOf? y = some j → g.nodeOf? y = some j := by
    intro x y hxy j hj
    obtain ⟨j', hj'⟩ := h.nodeOf?_of_node (h.node_of_calls x y hxy).2
    rw [hkeep y j' hj'] at hj
    rwa [← hj]
  have hnodes : ∀ x, (g₁.nodeOf? x).isSome ↔ node x ∨ x = c := fun x => by rw [hsome, h.isSome]
  have hnew_calls : ∀ x y, (calls x y ∨ x = a ∧ y = c) → (node x ∨ x = c) ∧ (node y ∨ y = c) := by
    rintro x y (hxy | ⟨rfl, rfl⟩)
    · exact ⟨.inl (h.node_of_calls x y hxy).1, .inl (h.node_of_calls x y hxy).2⟩
    · exact ⟨.inl hna, .inr rfl⟩
  -- the edges of the old graph, read through the new nodes
  have hold : ∀ i j : Nat, j ∈ g.succs[i]?.getD [] ↔
      ∃ x y, calls x y ∧ g₁.nodeOf? x = some i ∧ g₁.nodeOf? y = some j := by
    intro i j
    rw [h.edge]
    constructor
    · rintro ⟨x, y, hxy, hx, hy⟩
      exact ⟨x, y, hxy, hkeep x i hx, hkeep y j hy⟩
    · rintro ⟨x, y, hxy, hx, hy⟩
      exact ⟨x, y, hxy, hcall_node x y hxy i hx, hcall_node' x y hxy j hy⟩
  have hsrc₁ : g₁.nodeOf? a = some src := hkeep a src ha
  rw [hg₁]
  split
  · -- the edge was there already
    rename_i hin
    have hin : dst ∈ g.succs[src]?.getD [] := by simpa [hsucc] using hin
    refine ⟨⟨hsize, fun i => hsucc i ▸ h.nodup i, fun i j hj => ?_, hnodes, hnew_calls, fun i j => ?_⟩, hkeep⟩
    · rw [hsucc] at hj
      exact lt_of_lt_of_le (h.lt i j hj) hgrow
    · rw [hsucc, hold]
      constructor
      · rintro ⟨x, y, hxy, hx, hy⟩
        exact ⟨x, y, .inl hxy, hx, hy⟩
      · rintro ⟨x, y, hxy | ⟨rfl, rfl⟩, hx, hy⟩
        · exact ⟨x, y, hxy, hx, hy⟩
        · rw [hsrc₁] at hx
          rw [hdst] at hy
          cases hx
          cases hy
          exact (hold src dst).mp hin
  · -- a new edge from the caller's node to the callee's
    rename_i hnin
    have hnin : dst ∉ g.succs[src]?.getD [] := by simpa [hsucc] using hnin
    have hget : ∀ i : Nat, ((g₁.succs.set! src (g₁.succs[src]?.getD [] ++ [dst]))[i]?.getD []) =
        if src = i then g.succs[src]?.getD [] ++ [dst] else g.succs[i]?.getD [] := by
      intro i
      rw [Array.set!_eq_setIfInBounds, Array.getElem?_setIfInBounds]
      by_cases hi : src = i
      · subst hi
        simp [hsrc, ← hsucc]
      · simp [hi, hsucc]
    refine ⟨⟨by simp [hsize], fun i => ?_, fun i j hj => ?_, by simpa using hnodes, hnew_calls, fun i j => ?_⟩,
      by simpa using hkeep⟩
    · rw [hget]
      split
      · exact List.nodup_append.mpr ⟨h.nodup src, by simp, by
          rintro x hx y hy rfl
          rw [List.mem_singleton.mp hy] at hx
          exact hnin hx⟩
      · exact h.nodup i
    · rw [hget] at hj
      split at hj
      · rcases List.mem_append.mp hj with hj | hj
        · exact lt_of_lt_of_le (h.lt src j hj) hgrow
        · rw [List.mem_singleton.mp hj]
          exact hdst_lt
      · exact lt_of_lt_of_le (h.lt i j hj) hgrow
    · rw [hget]
      simp only [nodeOf?_succs]
      split
      · rename_i hi
        subst hi
        rw [List.mem_append, List.mem_singleton, hold]
        constructor
        · rintro (⟨x, y, hxy, hx, hy⟩ | rfl)
          · exact ⟨x, y, .inl hxy, hx, hy⟩
          · exact ⟨a, c, .inr ⟨rfl, rfl⟩, hsrc₁, hdst⟩
        · rintro ⟨x, y, hxy | ⟨rfl, rfl⟩, hx, hy⟩
          · exact .inl ⟨x, y, hxy, hx, hy⟩
          · rw [hdst] at hy
            exact .inr (Option.some.inj hy).symm
      · rename_i hi
        rw [hold]
        constructor
        · rintro ⟨x, y, hxy, hx, hy⟩
          exact ⟨x, y, .inl hxy, hx, hy⟩
        · rintro ⟨x, y, hxy | ⟨rfl, rfl⟩, hx, hy⟩
          · exact ⟨x, y, hxy, hx, hy⟩
          · rw [hsrc₁] at hx
            exact absurd (Option.some.inj hx) hi

/-- Adding the calls of a list of callees from the node of `a`. -/
theorem Built.foldl_addCall (h : Built g node calls) {a : String} {src : Nat} (ha : g.nodeOf? a = some src)
    (cs : List String) :
    Built (cs.foldl (CallGraph.addCall src) g) (fun x => node x ∨ x ∈ cs) (fun x y => calls x y ∨ x = a ∧ y ∈ cs) ∧
      ∀ x i, g.nodeOf? x = some i → (cs.foldl (CallGraph.addCall src) g).nodeOf? x = some i := by
  induction cs generalizing g node calls with
  | nil => exact ⟨h.congr (by simp) (by simp), fun _ _ hx => hx⟩
  | cons c cs ih =>
      obtain ⟨h₁, hkeep₁⟩ := h.addCall (c := c) ha
      obtain ⟨h₂, hkeep₂⟩ := ih h₁ (hkeep₁ a src ha)
      refine ⟨h₂.congr (fun x => ?_) (fun x y => ?_), fun x i hx => hkeep₂ x i (hkeep₁ x i hx)⟩
      · simp only [List.mem_cons]
        tauto
      · simp only [List.mem_cons]
        constructor
        · rintro ((hxy | ⟨rfl, rfl⟩) | ⟨rfl, hy⟩) <;> tauto
        · rintro (hxy | ⟨rfl, rfl | hy⟩) <;> tauto

/-- Adding the calls of a list of functions, each from the node of its name. -/
theorem Built.foldl_functions (fs : List Function) (h : Built g node calls) (hfs : ∀ f ∈ fs, node f.name) :
    Built (fs.foldl (fun g f => f.callees.foldl (CallGraph.addCall ((g.nodeOf? f.name).getD 0)) g) g)
      (fun x => node x ∨ ∃ f ∈ fs, x ∈ f.callees) (fun x y => calls x y ∨ ∃ f ∈ fs, f.name = x ∧ y ∈ f.callees) := by
  induction fs generalizing g node calls with
  | nil => exact h.congr (by simp) (by simp)
  | cons f fs ih =>
      obtain ⟨src, hsrc⟩ := h.nodeOf?_of_node (hfs f List.mem_cons_self)
      have h₁ := (h.foldl_addCall hsrc f.callees).1
      rw [List.foldl_cons, hsrc, Option.getD_some]
      refine (ih h₁ fun f' hf' => .inl (hfs f' (List.mem_cons_of_mem _ hf'))).congr (fun x => ?_) (fun x y => ?_)
      · simp only [List.mem_cons, exists_eq_or_imp]
        tauto
      · simp only [List.mem_cons, exists_eq_or_imp]
        tauto

/-- The call graph of a module has a node for each name of a function or a callee, and an edge
exactly where some function calls another. -/
theorem built_build (m : Module) : Built (build m) m.IsNode m.Calls := by
  have hbase : Built ⟨(m.functions.map (·.name)).toArray, Array.replicate m.functions.length []⟩
      (fun x => ∃ f ∈ m.functions, f.name = x) (fun _ _ => False) := by
    refine ⟨by simp, fun i => ?_, fun i j hj => ?_, fun x => ?_, by simp, fun i j => ?_⟩
    · rw [Array.getElem?_replicate]
      split <;> simp
    · rw [Array.getElem?_replicate] at hj
      split at hj <;> simp at hj
    · rw [isSome_nodeOf?]
      simp only [List.getElem?_toArray, ← List.mem_iff_getElem?, List.mem_map]
    · rw [Array.getElem?_replicate]
      split <;> simp
  refine (hbase.foldl_functions m.functions fun f hf => ⟨f, hf, rfl⟩).congr (fun x => ?_) (fun a b => ?_)
  · simp only [Module.IsNode, Module.Calls]
    constructor
    · rintro (h | ⟨f, hf, hx⟩)
      · exact .inl h
      · exact .inr ⟨f.name, f, hf, rfl, hx⟩
    · rintro (h | ⟨a, f, hf, -, hx⟩)
      · exact .inl h
      · exact .inr ⟨f, hf, hx⟩
  · simp [Module.Calls]

/-! ## Reachability by name -/

/-- An edge of the graph: `j` is among the successors of `i`. -/
def Edge (g : CallGraph) (i j : Nat) : Prop := j ∈ g.succs[i]?.getD []

/-- A path of calls from a name with a node is a path of edges from its node. -/
theorem Built.edges_of_calls (h : Built g node calls) {a x : String} (hax : ReflTransGen calls a x) {i : Nat}
    (ha : g.nodeOf? a = some i) : ∃ j, g.nodeOf? x = some j ∧ ReflTransGen g.Edge i j := by
  induction hax with
  | refl => exact ⟨i, ha, .refl⟩
  | tail _ hyz ih =>
      obtain ⟨j, hy, hij⟩ := ih
      obtain ⟨k, hz⟩ := h.nodeOf?_of_node (h.node_of_calls _ _ hyz).2
      exact ⟨k, hz, hij.tail ((h.edge j k).mpr ⟨_, _, hyz, hy, hz⟩)⟩

/-- A path of edges from the node of a name is a path of calls from the name. -/
theorem Built.calls_of_edges (h : Built g node calls) {i j : Nat} (hij : ReflTransGen g.Edge i j) {a : String}
    (ha : g.nodeOf? a = some i) : ∃ x, g.nodeOf? x = some j ∧ ReflTransGen calls a x := by
  induction hij with
  | refl => exact ⟨a, ha, .refl⟩
  | tail _ hjk ih =>
      obtain ⟨x, hx, hax⟩ := ih
      obtain ⟨y, z, hyz, hy, hz⟩ := (h.edge _ _).mp hjk
      obtain rfl := nodeOf?_inj hy hx
      exact ⟨z, hz, hax.tail hyz⟩

/-- A name with a path of calls to a name with a node has a node itself. -/
theorem Built.node_of_path (h : Built g node calls) {a x : String} (hax : ReflTransGen calls a x)
    (hx : node x) : node a := by
  rcases hax.cases_head with rfl | ⟨b, hab, -⟩
  · exact hx
  · exact (h.node_of_calls a b hab).1

/-- The search along the edges of a built graph stays below its node count. -/
theorem Built.bounded (h : Built g node calls) : Bounded g.names.size (fun k => g.succs[k]?.getD []) :=
  fun a _ => ⟨h.nodup a, h.lt a⟩

theorem mem_preds {i j : Nat} : i ∈ g.preds j ↔ g.Edge i j := by
  unfold preds Edge
  simp only [List.mem_filter, List.mem_range, List.contains_iff_mem, and_iff_right_iff_imp]
  intro hj
  by_contra hlt
  rw [Array.getElem?_eq_none (by omega)] at hj
  simp at hj

/-- The search along the callers of a built graph stays below its node count. -/
theorem Built.bounded_preds (h : Built g node calls) : Bounded g.names.size g.preds :=
  fun _ _ => ⟨List.nodup_range.filter _, fun b hb => by
    have hb := (List.mem_filter.mp hb).1
    rwa [List.mem_range, h.size_succs] at hb⟩

theorem mem_insertName {x s : String} : ∀ {l : List String}, x ∈ insertName s l ↔ x = s ∨ x ∈ l
  | [] => by simp [insertName]
  | t :: ts => by
      unfold insertName
      split
      · simp
      · split
        · rename_i hst
          subst hst
          simp
        · simp only [List.mem_cons, mem_insertName]
          tauto

/-- A fold that adds, at each node, the names the node stands for, ends with the names it started
with and those of all the nodes. -/
theorem mem_foldl_names {x : String} {P : Nat → Prop} {step : List String → Nat → List String}
    (hstep : ∀ acc i, x ∈ step acc i ↔ x ∈ acc ∨ P i) :
    ∀ (nodes : List Nat) (acc : List String), x ∈ nodes.foldl step acc ↔ x ∈ acc ∨ ∃ i ∈ nodes, P i
  | [], acc => by simp
  | i :: nodes, acc => by
      rw [List.foldl_cons, mem_foldl_names hstep nodes, hstep]
      simp only [List.mem_cons, exists_eq_or_imp]
      tauto

/-- The names of some nodes are the names those nodes have. -/
theorem mem_namesOf {x : String} {nodes : List Nat} :
    x ∈ g.namesOf nodes ↔ ∃ i ∈ nodes, g.names[i]? = some x := by
  unfold namesOf
  refine (@mem_foldl_names x (fun i => g.names[i]? = some x) _ (fun acc i => ?_) nodes []).trans (by simp)
  split
  · rename_i s hs
    rw [mem_insertName, hs, Option.some.injEq, eq_comm, or_comm]
  · rename_i hs
    simp [hs]

/-- The names reachable from a root are those a path of calls leads to, from a root the graph
has a node for. -/
theorem Built.mem_reachableFrom (h : Built g node calls) {root x : String} :
    x ∈ g.reachableFrom root ↔ node root ∧ ReflTransGen calls root x := by
  unfold reachableFrom
  rcases hroot : g.nodeOf? root with _ | i
  · have hn : ¬ node root := fun hn => by simpa [hroot] using (h.isSome root).mpr hn
    simp [hn]
  · have hstart : ∀ s ∈ [i], s < g.names.size := by simpa using lt_of_nodeOf? hroot
    rw [mem_namesOf]
    constructor
    · rintro ⟨j, hj, hx⟩
      obtain ⟨s, hs, hij⟩ := (mem_reach_iff h.bounded hstart).mp hj
      rw [List.mem_singleton] at hs
      subst hs
      obtain ⟨y, hy, hry⟩ := h.calls_of_edges hij hroot
      have hyx : y = x := Option.some.inj ((nodeOf?_some hy).symm.trans hx)
      exact ⟨(h.isSome root).mp (by simp [hroot]), hyx ▸ hry⟩
    · rintro ⟨-, hrx⟩
      obtain ⟨j, hx, hij⟩ := h.edges_of_calls hrx hroot
      exact ⟨j, (mem_reach_iff h.bounded hstart).mpr ⟨i, List.mem_singleton_self i, hij⟩, nodeOf?_some hx⟩

/-- The names reaching a function that satisfies `p` are those with a path of calls to one, when
every function has a node. -/
theorem Built.mem_reaching (h : Built g node calls) {m : Module} (hfun : ∀ f ∈ m.functions, node f.name)
    {p : Function → Bool} {x : String} :
    x ∈ g.reaching m p ↔ ∃ f ∈ m.functions, p f ∧ ReflTransGen calls x f.name := by
  unfold reaching
  have hstart : ∀ s ∈ (m.functions.filter p).filterMap (fun f => g.nodeOf? f.name), s < g.names.size := by
    intro s hs
    obtain ⟨f, -, hf⟩ := List.mem_filterMap.mp hs
    exact lt_of_nodeOf? hf
  -- a path along callers is a path of edges the other way
  have hswap : ∀ {a b : Nat}, ReflTransGen (fun a b => b ∈ g.preds a) a b ↔ ReflTransGen g.Edge b a := by
    intro a b
    rw [← reflTransGen_swap]
    exact ⟨fun hab => ReflTransGen.mono (fun _ _ => mem_preds.mp) _ _ hab,
      fun hab => ReflTransGen.mono (fun _ _ => mem_preds.mpr) _ _ hab⟩
  rw [mem_namesOf]
  constructor
  · rintro ⟨j, hj, hx⟩
    obtain ⟨s, hs, hsj⟩ := (mem_reach_iff h.bounded_preds hstart).mp hj
    obtain ⟨f, hf, hfs⟩ := List.mem_filterMap.mp hs
    obtain ⟨hf, hpf⟩ := List.mem_filter.mp hf
    have hjs := hswap.mp hsj
    refine ⟨f, hf, hpf, ?_⟩
    rcases hjs.cases_head with rfl | ⟨k, hjk, -⟩
    · have hxf : x = f.name := by simpa [hx] using nodeOf?_some hfs
      rw [hxf]
    · -- a node with an edge out is the node of a caller's name
      obtain ⟨y, -, -, hy, -⟩ := (h.edge _ _).mp hjk
      have hyx : y = x := Option.some.inj ((nodeOf?_some hy).symm.trans hx)
      obtain ⟨w, hw, hyw⟩ := h.calls_of_edges hjs hy
      rw [nodeOf?_inj hfs hw, ← hyx]
      exact hyw
  · rintro ⟨f, hf, hpf, hxf⟩
    obtain ⟨j, hx⟩ := h.nodeOf?_of_node (h.node_of_path hxf (hfun f hf))
    obtain ⟨s, hfs, hjs⟩ := h.edges_of_calls hxf hx
    have hs : s ∈ (m.functions.filter p).filterMap (fun f => g.nodeOf? f.name) :=
      List.mem_filterMap.mpr ⟨f, List.mem_filter.mpr ⟨hf, hpf⟩, hfs⟩
    exact ⟨j, (mem_reach_iff h.bounded_preds hstart).mpr ⟨s, hs, hswap.mpr hjs⟩, nodeOf?_some hx⟩

/-- A name is reachable from a root of a module's call graph exactly when the root is a function
or a callee and a path of calls leads from it to the name. -/
theorem mem_reachableFrom_build {m : Module} {root x : String} :
    x ∈ (build m).reachableFrom root ↔ m.IsNode root ∧ ReflTransGen m.Calls root x :=
  (built_build m).mem_reachableFrom

/-- A name reaches a function satisfying `p` in a module's call graph exactly when a path of calls
leads from it to one. -/
theorem mem_reaching_build {m : Module} {p : Function → Bool} {x : String} :
    x ∈ (build m).reaching m p ↔ ∃ f ∈ m.functions, p f ∧ ReflTransGen m.Calls x f.name :=
  (built_build m).mem_reaching fun f hf => .inl ⟨f, hf, rfl⟩

variable {m m' : Module}

/-- More functions reach more: what a root reaches it still reaches in a module with more
functions. -/
theorem reachableFrom_build_mono (hsub : m.functions ⊆ m'.functions) {root x : String}
    (h : x ∈ (build m).reachableFrom root) : x ∈ (build m').reachableFrom root := by
  obtain ⟨hroot, hpath⟩ := mem_reachableFrom_build.mp h
  refine mem_reachableFrom_build.mpr ⟨?_, ReflTransGen.mono (fun _ _ => Module.Calls.mono hsub) _ _ hpath⟩
  rcases hroot with ⟨f, hf, hname⟩ | ⟨a, hcall⟩
  · exact .inl ⟨f, hsub hf, hname⟩
  · exact .inr ⟨a, hcall.mono hsub⟩

/-- A name that reaches a function satisfying `p` still does in a module with more functions. -/
theorem reaching_build_mono (hsub : m.functions ⊆ m'.functions) {p : Function → Bool} {x : String}
    (h : x ∈ (build m).reaching m p) : x ∈ (build m').reaching m' p := by
  obtain ⟨f, hf, hpf, hpath⟩ := mem_reaching_build.mp h
  exact mem_reaching_build.mpr ⟨f, hsub hf, hpf, ReflTransGen.mono (fun _ _ => Module.Calls.mono hsub) _ _ hpath⟩

end CallGraph

end KernelLaunch
