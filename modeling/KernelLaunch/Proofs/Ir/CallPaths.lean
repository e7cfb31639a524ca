import KernelLaunch.Proofs.Ir.Insts
import KernelLaunch.Kernel.Traits
/-!
# What the call graph answers, by paths of calls

A function calls `b` when a call to `b` stands in its body at some loop depth (`Inst.OccursIn`).
The call graph of a module answers four questions about these calls, and this module says what
each answer is in terms of paths of calls alone, for any module: duplicate names and callees that
no function defines included.

* The names reachable from a root are the least set holding the root and closed under calls, and
  nothing when the root names neither a function nor a callee (`mem_reachableFrom_build`).
* The names reaching a function with a property are those with a path of calls to its name
  (`mem_reaching_build`).
* The graph is recursive exactly when some name has a path of at least one call back to itself
  (`isRecursive_build_iff`): a node with an edge out stands for a name, and a path of edges between
  such nodes is a path of calls between their names.
* A function synchronizes the work-group, or prints, exactly when it is shaped as a work-group
  body, or some name it reaches is, as `Module.get?` finds it, a function holding a barrier (a
  printf) at some depth (`hasWorkgroupBarriers_build_iff`, `performsOutput_build_iff`).

`build_answers_call_paths` gathers them.
-/

namespace KernelLaunch

open Relation

namespace Inst

/-- The instruction stands in the body at some loop depth: in the body itself, or at some depth
in the body of one of its loops. -/
inductive OccursIn (i : Inst) : List Inst → Prop where
  | here {is : List Inst} : i ∈ is → OccursIn i is
  | nested {is : List Inst} {v : Nat} {b : Operand} {body : List Inst} :
      Inst.loop v b body ∈ is → OccursIn i body → OccursIn i is

theorem OccursIn.mono {i : Inst} {is is' : List Inst} (hsub : is ⊆ is') : OccursIn i is → OccursIn i is'
  | .here h => .here (hsub h)
  | .nested hloop hbody => .nested (hsub hloop) hbody

theorem mem_preorder_self : ∀ j : Inst, j ∈ preorder j
  | .loop .. => List.mem_cons_self
  | .bin .. | .load .. | .store .. | .alloca .. | .memcpy .. | .call .. | .barrier | .printf ..
  | .placeholder .. | .ret => List.mem_singleton_self _

/-- The pre-order list of a body lists the pre-order list of each of its instructions. -/
theorem preorder_subset_preorderList {j : Inst} : ∀ {is : List Inst}, j ∈ is → preorder j ⊆ preorderList is
  | k :: ks, h => by
      rw [preorderList]
      rcases List.mem_cons.mp h with rfl | h
      · exact List.subset_append_left _ _
      · exact fun x hx => List.subset_append_right _ _ (preorder_subset_preorderList h hx)

mutual

/-- What the pre-order list of an instruction holds: itself, and if it is a loop, what stands in
its body. -/
theorem eq_or_occursIn_of_mem_preorder : ∀ (j : Inst) {i : Inst}, i ∈ preorder j →
    i = j ∨ ∃ v b body, j = .loop v b body ∧ OccursIn i body
  | .loop v b body, i, h => by
      rcases List.mem_cons.mp h with rfl | h
      · exact .inl rfl
      · exact .inr ⟨v, b, body, rfl, occursIn_of_mem_preorderList body h⟩
  | .bin .., _, h | .load .., _, h | .store .., _, h | .alloca .., _, h | .memcpy .., _, h
  | .call .., _, h | .barrier, _, h | .printf .., _, h | .placeholder .., _, h | .ret, _, h =>
      .inl (List.mem_singleton.mp h)

theorem occursIn_of_mem_preorderList : ∀ (is : List Inst) {i : Inst}, i ∈ preorderList is → OccursIn i is
  | [], _, h => by simp [preorderList] at h
  | j :: js, i, h => by
      rcases List.mem_append.mp h with h | h
      · rcases eq_or_occursIn_of_mem_preorder j h with rfl | ⟨v, b, body, rfl, hbody⟩
        · exact .here List.mem_cons_self
        · exact .nested List.mem_cons_self hbody
      · exact (occursIn_of_mem_preorderList js h).mono (List.subset_cons_self j js)

end

/-- The pre-order list of a body holds exactly the instructions standing in it at some depth. -/
theorem mem_preorderList_iff {i : Inst} {is : List Inst} : i ∈ preorderList is ↔ OccursIn i is := by
  refine ⟨occursIn_of_mem_preorderList is, fun h => ?_⟩
  induction h with
  | here h => exact preorder_subset_preorderList h (mem_preorder_self i)
  | nested hloop _ ih =>
      -- the loop's pre-order list holds its body's
      exact preorder_subset_preorderList hloop (List.mem_cons_of_mem _ ih)

end Inst

namespace Function

/-- A function holds an instruction with the property exactly when one stands in its body at some
depth. -/
theorem contains_eq_true_iff {f : Function} {p : Inst → Bool} :
    f.contains p = true ↔ ∃ i, Inst.OccursIn i f.insts ∧ p i = true := by
  simp only [contains, allInsts, List.any_eq_true, Inst.mem_preorderList_iff]

end Function

namespace Module

/-- `a` calls `b` exactly when a call to `b` stands at some depth in a function named `a`. -/
theorem calls_iff {m : Module} {a b : String} :
    m.Calls a b ↔ ∃ f ∈ m.functions, f.name = a ∧ ∃ d args, Inst.OccursIn (.call d b args) f.insts := by
  simp only [Calls, Function.mem_callees, Function.allInsts, Inst.mem_preorderList_iff]

end Module

namespace CallGraph

variable {g : CallGraph} {node : String → Prop} {calls : String → String → Prop}

/-- A path of at least one edge from the node of a name is a path of at least one call. -/
theorem Built.transGen_calls_of_edges (h : Built g node calls) {i j : Nat} (hij : TransGen g.Edge i j)
    {a : String} (ha : g.nodeOf? a = some i) : ∃ x, g.nodeOf? x = some j ∧ TransGen calls a x := by
  obtain ⟨k, hik, hkj⟩ := TransGen.head'_iff.mp hij
  obtain ⟨y, z, hyz, hy, hz⟩ := (h.edge i k).mp hik
  obtain rfl := nodeOf?_inj hy ha
  obtain ⟨x, hx, hzx⟩ := h.calls_of_edges hkj hz
  exact ⟨x, hx, TransGen.head' hyz hzx⟩

/-- A path of at least one call from a name with a node is a path of at least one edge. -/
theorem Built.transGen_edges_of_calls (h : Built g node calls) {a x : String} (hax : TransGen calls a x)
    {i : Nat} (ha : g.nodeOf? a = some i) : ∃ j, g.nodeOf? x = some j ∧ TransGen g.Edge i j := by
  obtain ⟨b, hab, hbx⟩ := TransGen.head'_iff.mp hax
  obtain ⟨k, hb⟩ := h.nodeOf?_of_node (h.node_of_calls a b hab).2
  obtain ⟨j, hx, hkj⟩ := h.edges_of_calls hbx hb
  exact ⟨j, hx, TransGen.head' ((h.edge i k).mpr ⟨a, b, hab, ha, hb⟩) hkj⟩

/-- A built graph is recursive exactly when some name calls itself back through at least one call. -/
theorem Built.isRecursive_iff (h : Built g node calls) : g.isRecursive = true ↔ ∃ a, TransGen calls a a := by
  unfold isRecursive
  simp only [List.any_eq_true, List.mem_range, List.contains_iff_mem]
  constructor
  · rintro ⟨i, -, hmem⟩
    obtain ⟨s, hs, hsi⟩ := (mem_reach_iff h.bounded (h.lt i)).mp hmem
    -- a node with an edge out is the node of a caller's name
    obtain ⟨a, -, -, ha, -⟩ := (h.edge i s).mp hs
    obtain ⟨x, hx, hax⟩ := h.transGen_calls_of_edges (TransGen.head' hs hsi) ha
    obtain rfl := nodeOf?_inj hx ha
    exact ⟨x, hax⟩
  · rintro ⟨a, haa⟩
    obtain ⟨b, hab, -⟩ := TransGen.head'_iff.mp haa
    obtain ⟨i, ha⟩ := h.nodeOf?_of_node (h.node_of_calls a b hab).1
    obtain ⟨j, hj, hij⟩ := h.transGen_edges_of_calls haa ha
    obtain rfl : j = i := Option.some.inj (hj.symm.trans ha)
    obtain ⟨s, hs, hsj⟩ := TransGen.head'_iff.mp hij
    exact ⟨j, lt_of_nodeOf? ha, (mem_reach_iff h.bounded (h.lt j)).mpr ⟨s, hs, hsj⟩⟩

/-- The call graph of a module is recursive exactly when some name calls itself back, directly or
through other calls. -/
theorem isRecursive_build_iff {m : Module} : (build m).isRecursive = true ↔ ∃ a, TransGen m.Calls a a :=
  (built_build m).isRecursive_iff

end CallGraph

namespace Function

open CallGraph

variable {m : Module} {f : Function}

/-- A function reaches an instruction with the property exactly when a name it reaches is, as
`Module.get?` finds it, a function holding one at some depth. -/
theorem reachesInst_build_iff {p : Inst → Bool} :
    f.reachesInst m (build m) p = true ↔
      ∃ x h, (m.IsNode f.name ∧ ReflTransGen m.Calls f.name x) ∧ m.get? x = some h ∧
        ∃ i, Inst.OccursIn i h.insts ∧ p i = true := by
  unfold reachesInst
  simp only [List.any_eq_true, mem_reachableFrom_build]
  constructor
  · rintro ⟨x, hx, hfound⟩
    split at hfound
    · rename_i h hget
      exact ⟨x, h, hx, hget, contains_eq_true_iff.mp hfound⟩
    · exact absurd hfound Bool.false_ne_true
  · rintro ⟨x, h, hx, hget, hi⟩
    exact ⟨x, hx, by rw [hget]; exact contains_eq_true_iff.mpr hi⟩

/-- A function synchronizes the work-group exactly when it is shaped as a work-group body or a name
it reaches is a function holding a barrier at some depth. -/
theorem hasWorkgroupBarriers_build_iff :
    f.hasWorkgroupBarriers m (build m) = true ↔ f.attrs.workgroupBody = true ∨
      ∃ x h, (m.IsNode f.name ∧ ReflTransGen m.Calls f.name x) ∧ m.get? x = some h ∧
        Inst.OccursIn .barrier h.insts := by
  unfold hasWorkgroupBarriers
  rw [Bool.or_eq_true, reachesInst_build_iff]
  -- the only instruction that is a barrier is the barrier
  have hbarrier : ∀ is : List Inst, (∃ i, Inst.OccursIn i is ∧ i.isBarrier = true) ↔ Inst.OccursIn .barrier is :=
    fun is => ⟨fun ⟨i, hi, hb⟩ => by
      cases i with
      | barrier => exact hi
      | _ => simp [Inst.isBarrier] at hb, fun hb => ⟨_, hb, rfl⟩⟩
  simp only [hbarrier]

/-- A function prints exactly when a name it reaches is a function holding a printf at some depth. -/
theorem performsOutput_build_iff :
    f.performsOutput m (build m) = true ↔
      ∃ x h, (m.IsNode f.name ∧ ReflTransGen m.Calls f.name x) ∧ m.get? x = some h ∧
        ∃ fmt args buf, Inst.OccursIn (.printf fmt args buf) h.insts := by
  unfold performsOutput
  rw [reachesInst_build_iff]
  have hprintf : ∀ is : List Inst, (∃ i, Inst.OccursIn i is ∧ i.isPrintf = true) ↔
      ∃ fmt args buf, Inst.OccursIn (.printf fmt args buf) is :=
    fun is => ⟨fun ⟨i, hi, hp⟩ => by
      cases i with
      | printf fmt args buf => exact ⟨fmt, args, buf, hi⟩
      | _ => simp [Inst.isPrintf] at hp, fun ⟨_, _, _, hp⟩ => ⟨_, hp, rfl⟩⟩
  simp only [hprintf]

end Function

namespace CallGraph

/-- The call graph of any module answers by paths of calls, where `a` calls `b` when a call to `b`
stands at some depth in a function named `a`: the names reachable from a root are those a path of
calls leads to from a root that names a function or a callee, the names reaching a function with a
property are those with a path of calls to it, the graph is recursive exactly when some name calls
itself back, and a function synchronizes (prints) exactly when it is shaped as a work-group body
(for barriers) or a name it reaches is a function holding a barrier (a printf) at some depth. -/
theorem build_answers_call_paths (m : Module) :
    (∀ a b, m.Calls a b ↔ ∃ f ∈ m.functions, f.name = a ∧ ∃ d args, Inst.OccursIn (.call d b args) f.insts) ∧
    (∀ root x, x ∈ (build m).reachableFrom root ↔ m.IsNode root ∧ ReflTransGen m.Calls root x) ∧
    (∀ (p : Function → Bool) x, x ∈ (build m).reaching m p ↔
      ∃ f ∈ m.functions, p f ∧ ReflTransGen m.Calls x f.name) ∧
    ((build m).isRecursive = true ↔ ∃ a, TransGen m.Calls a a) ∧
    (∀ f : Function, f.hasWorkgroupBarriers m (build m) = true ↔ f.attrs.workgroupBody = true ∨
      ∃ x h, (m.IsNode f.name ∧ ReflTransGen m.Calls f.name x) ∧ m.get? x = some h ∧
        Inst.OccursIn .barrier h.insts) ∧
    (∀ f : Function, f.performsOutput m (build m) = true ↔
      ∃ x h, (m.IsNode f.name ∧ ReflTransGen m.Calls f.name x) ∧ m.get? x = some h ∧
        ∃ fmt args buf, Inst.OccursIn (.printf fmt args buf) h.insts) :=
  ⟨fun _ _ => Module.calls_iff, fun _ _ => mem_reachableFrom_build, fun _ _ => mem_reaching_build,
    isRecursive_build_iff, fun _ => Function.hasWorkgroupBarriers_build_iff,
    fun _ => Function.performsOutput_build_iff⟩

end CallGraph

end KernelLaunch
