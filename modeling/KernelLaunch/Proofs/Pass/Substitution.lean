import KernelLaunch.Proofs.Ir.Nesting
import KernelLaunch.Proofs.Pass.Routing
/-!
# Substitutions that reach every depth

Two rewrites of the pass replace operands throughout a body. Resolving placeholders drops the
placeholder instructions a map names and puts the mapped operand in place of every read of a
mapped register; privatizing puts the mapped operand in place of every read of a mapped handle,
and counts the reads it replaced. Both walk the body once, testing and rewriting a loop's header
before they enter its body.

Main statement: `replaced_at_every_depth`. Resolving placeholders is deleting the mapped
placeholders at every depth, then substituting at every depth; in the listing of the result
(`Inst.nestingList`) every other instruction keeps its place, its depth and its loops' variables,
and only operands, loop bounds among them, change. Privatizing substitutes at every depth and
answers the number of reads of a mapped handle in the whole body.
-/

namespace KernelLaunch

open Inst

/-- Whether an operand reads a handle that the map gives an operand for. -/
def readsMappedHandle (values : List (HandleRef × Operand)) : Operand → Bool
  | .handle h => (Function.lookupHandle values h).isSome
  | _ => false

/-- Deleting nothing changes nothing. -/
theorem Inst.pruneList_true : ∀ is : List Inst, pruneList (fun _ => true) is = is
  | [] => rfl
  | .loop v b body :: is => by simp [pruneList, prune, pruneList_true body, pruneList_true is]
  | .bin .. :: is | .load .. :: is | .store .. :: is | .alloca .. :: is | .memcpy .. :: is
  | .call .. :: is | .barrier :: is | .printf .. :: is | .placeholder .. :: is | .ret :: is => by
      simp [pruneList, prune, pruneList_true is]

/-- The placeholder map deletes no loop. -/
theorem placeholderKeep_loop (map : List (Nat × Operand)) (v : Nat) (b : Operand) (body : List Inst) :
    placeholderKeep map (.loop v b body) = true := rfl

/-- Resolving placeholders deletes the mapped placeholders at every depth, then substitutes the
mapped registers at every depth. -/
theorem replacePlaceholders_eq_subst_prune (insts : List Inst) (map : List (Nat × Operand)) :
    replacePlaceholders insts map =
      substOperandsList (placeholderSwap map) (pruneList (placeholderKeep map) insts) := by
  rw [replacePlaceholders_eq, rewriteList_mapOperands]

/-- Privatizing substitutes the mapped handles at every depth and leaves the rest of the function
as it is. -/
theorem Function.privatize_fst (f : Function) (values : List (HandleRef × Operand)) :
    (f.privatize values).1 = { f with body := f.body.map (substOperandsList (handleSwap values)) } := by
  unfold Function.privatize
  split
  · rename_i hb
    obtain ⟨name, params, body, attrs⟩ := f
    cases hb
    rfl
  · rename_i is hb
    simp only [hb, Option.map_some, rewriteList_mapOperands, pruneList_true]
    congr 3
    funext o
    cases o <;> rfl

/-- The number of reads of mapped handles an instruction makes itself, nested bodies left out. -/
theorem Function.replacedIn_eq (values : List (HandleRef × Operand)) (i : Inst) :
    Function.replacedIn values i = i.operands.countP (readsMappedHandle values) := by
  rw [Function.replacedIn, List.countP_eq_length_filter]
  congr 2

/-- Privatizing counts the reads of mapped handles at every depth. -/
theorem Function.privatize_snd (f : Function) (values : List (HandleRef × Operand)) :
    (f.privatize values).2 = ((preorderList f.insts).flatMap operands).countP (readsMappedHandle values) := by
  -- the count is a running sum over the body in pre-order
  have hsum : ∀ (l : List Inst) (n : Nat), l.foldl (fun n i => n + Function.replacedIn values i) n =
      n + (l.flatMap operands).countP (readsMappedHandle values) := by
    intro l
    induction l with
    | nil => simp
    | cons i is ih =>
        intro n
        rw [List.foldl_cons, ih, List.flatMap_cons, List.countP_append, Function.replacedIn_eq]
        omega
  unfold Function.privatize
  split
  · rename_i hb
    simp [Function.insts, hb, preorderList]
  · rename_i is hb
    simp only [Function.insts, hb, Option.getD_some]
    rw [hsum, Nat.zero_add]

/-- Resolving placeholders and privatizing handles reach every depth. Resolving is deleting the
mapped placeholders at every depth and then substituting the mapped registers at every depth; so
the result lists the original's other instructions in their order, each among the same loops,
with only their operands and the loops' bounds substituted. Privatizing substitutes the mapped
handles at every depth and answers how many reads of them the whole body makes. -/
theorem replaced_at_every_depth (insts : List Inst) (map : List (Nat × Operand)) (f : Function)
    (values : List (HandleRef × Operand)) :
    replacePlaceholders insts map =
        substOperandsList (placeholderSwap map) (pruneList (placeholderKeep map) insts) ∧
      nestingList (replacePlaceholders insts map) =
        ((nestingList insts).filter (placeholderKeep map ·.2)).map (substEntry (placeholderSwap map)) ∧
      (f.privatize values).1 = { f with body := f.body.map (substOperandsList (handleSwap values)) } ∧
      (f.privatize values).2 = ((preorderList f.insts).flatMap operands).countP (readsMappedHandle values) := by
  have hsplit := replacePlaceholders_eq_subst_prune insts map
  refine ⟨hsplit, ?_, Function.privatize_fst f values, Function.privatize_snd f values⟩
  rw [hsplit, nestingList_substOperandsList, nestingList_pruneList (placeholderKeep_loop map)]

/-- The placeholder of the innermost of two loops is dropped, and its use reads the loop's
variable. -/
example :
    replacePlaceholders
        [.loop 0 (.imm 2) [.loop 1 (.imm 3) [.placeholder 2 "_local_id_x", .call none "use" [.reg 2]]]]
        [(2, .reg 1)] =
      [.loop 0 (.imm 2) [.loop 1 (.imm 3) [.call none "use" [.reg 1]]]] := rfl

end KernelLaunch
