import KernelLaunch.Proofs.Ir.Reach

/-!
# The instructions of a body

A body is a list of instructions whose loops hold bodies of their own, and `Inst.preorderList`
lists them all, each loop before its body. `Inst.rewriteList` rewrites a body instruction by
instruction, so every instruction of a rewritten body that is not a loop is the rewrite of one
of the original's, when the rewrite keeps loops as loops and makes no loop of anything else
(`Inst.mem_preorderList_rewriteList`). The functions a function calls and the kinds of
instruction it holds are read off that list (`Function.mem_callees`, `Function.contains_eq_false`),
which is all later proofs need to follow calls and outputs through a rewrite.
-/

namespace KernelLaunch

namespace Inst

/-- A loop, whatever its header and body. -/
def IsLoop (i : Inst) : Prop := ∃ v b body, i = .loop v b body

@[simp] theorem preorderList_append (xs ys : List Inst) :
    preorderList (xs ++ ys) = preorderList xs ++ preorderList ys := by
  induction xs with
  | nil => rfl
  | cons i is ih => simp [preorderList, ih]

/-- An instruction that is not a loop stands alone in its pre-order list. -/
theorem preorder_of_not_loop {i : Inst} (hi : ¬ i.IsLoop) : preorder i = [i] := by
  cases i with
  | loop v b body => exact absurd ⟨v, b, body, rfl⟩ hi
  | _ => rfl

/-- A rewrite that keeps a loop a loop, with its variable and body, and makes no loop of anything
else. -/
structure KeepsLoops (f : Inst → Inst) : Prop where
  loop : ∀ v b body, ∃ b', f (.loop v b body) = .loop v b' body
  not_loop : ∀ i, (f i).IsLoop → i.IsLoop

section Rewrite

variable {f : Inst → Inst}

/-- Rewriting an instruction that is not a loop gives the rewrite alone. -/
theorem mem_preorder_rewrite_of_not_loop (hf : KeepsLoops f) {i j : Inst} (hi : ¬ i.IsLoop)
    (hj : j ∈ preorder (f i)) : j = f i := by
  rw [preorder_of_not_loop fun h => hi (hf.not_loop i h)] at hj
  exact List.mem_singleton.mp hj

mutual

/-- Every instruction of a rewritten instruction's pre-order list is a loop or the rewrite of one
of the original's. -/
theorem mem_preorder_rewrite (hf : KeepsLoops f) :
    ∀ (i : Inst) {j : Inst}, j ∈ preorder (rewrite f (fun _ => true) i) → (∃ k ∈ preorder i, j = f k) ∨ j.IsLoop
  | .loop v b body, j, hj => by
      obtain ⟨b', hb'⟩ := hf.loop v b []
      simp only [rewrite, hb', preorder, List.mem_cons] at hj
      rcases hj with rfl | hj
      · exact .inr ⟨_, _, _, rfl⟩
      · rcases mem_preorderList_rewriteList hf body hj with ⟨k, hk, rfl⟩ | hloop
        · exact .inl ⟨k, List.mem_cons_of_mem _ hk, rfl⟩
        · exact .inr hloop
  | .bin .., _, hj | .load .., _, hj | .store .., _, hj | .alloca .., _, hj | .memcpy .., _, hj
  | .call .., _, hj | .barrier, _, hj | .printf .., _, hj | .placeholder .., _, hj | .ret, _, hj =>
      .inl ⟨_, List.mem_singleton_self _, mem_preorder_rewrite_of_not_loop hf (by simp [IsLoop]) hj⟩

/-- Every instruction of a rewritten body, loop bodies included, is a loop or the rewrite of one of
the original body's. -/
theorem mem_preorderList_rewriteList (hf : KeepsLoops f) :
    ∀ (is : List Inst) {j : Inst}, j ∈ preorderList (rewriteList f (fun _ => true) is) →
      (∃ k ∈ preorderList is, j = f k) ∨ j.IsLoop
  | [], _, hj => by simp [rewriteList, preorderList] at hj
  | i :: is, j, hj => by
      simp only [rewriteList, if_true, preorderList, List.mem_append] at hj
      rcases hj with hj | hj
      · rcases mem_preorder_rewrite hf i hj with ⟨k, hk, rfl⟩ | hloop
        · exact .inl ⟨k, List.mem_append_left _ hk, rfl⟩
        · exact .inr hloop
      · rcases mem_preorderList_rewriteList hf is hj with ⟨k, hk, rfl⟩ | hloop
        · exact .inl ⟨k, List.mem_append_right _ hk, rfl⟩
        · exact .inr hloop

end

end Rewrite

/-- Rewriting operands keeps every loop a loop and makes no other. -/
theorem keepsLoops_mapOperands (g : Operand → Operand) : KeepsLoops (mapOperands g) where
  loop v b body := ⟨g b, rfl⟩
  not_loop i := by cases i <;> simp [IsLoop, mapOperands]

end Inst

namespace Function

theorem insertName_eq : Function.insertName = CallGraph.insertName := by
  funext s l
  induction l with
  | nil => rfl
  | cons t ts ih => simp only [Function.insertName, CallGraph.insertName, ih]

/-- Collecting callees over instructions adds the callee of each call. -/
theorem mem_foldl_callees {y : String} :
    ∀ (is : List Inst) (acc : List String),
      y ∈ is.foldl (fun acc i => match i with | .call _ c _ => insertName c acc | _ => acc) acc ↔
        y ∈ acc ∨ ∃ d args, Inst.call d y args ∈ is
  | [], acc => by simp
  | i :: is, acc => by
      rw [List.foldl_cons, mem_foldl_callees is]
      cases i with
      | call d c args =>
          simp only [insertName_eq, CallGraph.mem_insertName, List.mem_cons, Inst.call.injEq]
          constructor
          · rintro ((rfl | h) | ⟨d', args', h⟩)
            · exact .inr ⟨d, args, .inl ⟨rfl, rfl, rfl⟩⟩
            · exact .inl h
            · exact .inr ⟨d', args', .inr h⟩
          · rintro (h | ⟨d', args', ⟨rfl, rfl, rfl⟩ | h⟩)
            · exact .inl (.inr h)
            · exact .inl (.inl rfl)
            · exact .inr ⟨d', args', h⟩
      | _ => simp

/-- A function calls exactly the callees of the calls among its instructions, loop bodies
included. -/
theorem mem_callees {f : Function} {y : String} : y ∈ f.callees ↔ ∃ d args, Inst.call d y args ∈ f.allInsts := by
  unfold callees
  exact (mem_foldl_callees f.allInsts []).trans (by simp)

/-- A function holds no instruction with the property when none of its instructions, loop bodies
included, has it. -/
theorem contains_eq_false {f : Function} {p : Inst → Bool} : f.contains p = false ↔ ∀ i ∈ f.allInsts, p i = false := by
  simp [contains]

@[simp] theorem allInsts_withBody (f : Function) (is : List Inst) :
    ({ f with body := some is } : Function).allInsts = Inst.preorderList is := rfl

end Function

end KernelLaunch
