import KernelLaunch.Proofs.Ir.Insts
/-!
# Where each instruction of a body sits

A body is a tree: a loop holds a body of its own. `Inst.nestingList` lists the instructions of a
body at every depth in pre-order, each with the headers of the loops around it, outermost first;
a loop is listed by its header alone, its body following it one level deeper. The listing
determines the body (`Inst.nestingList_injective`): two bodies are equal exactly when the same
instructions sit in the same order among the same loops.

Two rewrites of a body are read off that listing. Substituting operands at every depth
(`Inst.substOperandsList`) rewrites the operands of every listed instruction and the bound of
every loop around it, and nothing else (`Inst.nestingList_substOperandsList`). Deleting the
instructions a test rejects at every depth (`Inst.pruneList`) drops exactly their entries, when
the test keeps every loop (`Inst.nestingList_pruneList`). The one-pass rewrite `Inst.rewriteList`
of operands, which tests an instruction before it rewrites it and rewrites a loop's header before
its body, is the deletion followed by the substitution (`Inst.rewriteList_mapOperands`).
-/

namespace KernelLaunch

namespace Inst

/-! ## The listing -/

/-- An entry of the listing placed inside further loops, given outermost first. -/
def under (loops : List (Nat × Operand)) (e : List (Nat × Operand) × Inst) : List (Nat × Operand) × Inst :=
  (loops ++ e.1, e.2)

/-- An instruction as the listing shows it: a loop without its body. -/
def header : Inst → Inst
  | .loop v b _ => .loop v b []
  | i => i

/-- The body a loop holds; none for any other instruction. -/
def inner : Inst → List Inst
  | .loop _ _ body => body
  | _ => []

/-- The header a loop adds around its body; none for any other instruction. -/
def innerLoops : Inst → List (Nat × Operand)
  | .loop v b _ => [(v, b)]
  | _ => []

mutual
/-- An instruction's header, then the listing of what it holds, one loop deeper. -/
def nesting : Inst → List (List (Nat × Operand) × Inst)
  | .loop v b body => ([], .loop v b []) :: (nestingList body).map (under [(v, b)])
  | i => [([], i)]

/-- The instructions of a body at every depth, in pre-order, each with the headers of the loops
around it, outermost first. -/
def nestingList : List Inst → List (List (Nat × Operand) × Inst)
  | [] => []
  | i :: is => nesting i ++ nestingList is
end

@[simp] theorem under_nil (e : List (Nat × Operand) × Inst) : under [] e = e := rfl

@[simp] theorem map_under_nil (l : List (List (Nat × Operand) × Inst)) : l.map (under []) = l := by
  rw [show under [] = id from funext under_nil, List.map_id]

@[simp] theorem under_under (p q : List (Nat × Operand)) (e : List (Nat × Operand) × Inst) :
    under p (under q e) = under (p ++ q) e := by
  simp [under]

@[simp] theorem snd_under (p : List (Nat × Operand)) (e : List (Nat × Operand) × Inst) :
    (under p e).2 = e.2 := rfl

theorem under_injective (p : List (Nat × Operand)) : Function.Injective (under p) := by
  rintro ⟨q, i⟩ ⟨q', i'⟩ h
  simp only [under, Prod.mk.injEq, List.append_cancel_left_eq] at h
  rw [h.1, h.2]

@[simp] theorem nestingList_nil : nestingList [] = [] := by
  simp [nestingList]

@[simp] theorem nestingList_cons (i : Inst) (is : List Inst) :
    nestingList (i :: is) = nesting i ++ nestingList is := by
  simp [nestingList]

@[simp] theorem nestingList_append (xs ys : List Inst) :
    nestingList (xs ++ ys) = nestingList xs ++ nestingList ys := by
  induction xs with
  | nil => simp
  | cons i is ih => simp [ih]

/-- Every instruction opens its listing with its header, at no depth, followed by what it holds. -/
theorem nesting_eq (i : Inst) : nesting i = ([], header i) :: (nestingList (inner i)).map (under (innerLoops i)) := by
  cases i <;> simp [nesting, header, inner, innerLoops]

/-- An instruction is its header with its body put back. -/
theorem eq_of_header_inner {i j : Inst} (hh : header i = header j) (hb : inner i = inner j) : i = j := by
  cases i <;> cases j <;> simp_all [header, inner]

theorem innerLoops_of_header_eq {i j : Inst} (hh : header i = header j) : innerLoops i = innerLoops j := by
  cases i <;> cases j <;> simp_all [header, innerLoops]

theorem innerLoops_ne_nil {i : Inst} (h : inner i ≠ []) : innerLoops i ≠ [] := by
  cases i <;> simp_all [inner, innerLoops]

theorem nestingList_eq_nil {is : List Inst} : nestingList is = [] ↔ is = [] := by
  cases is with
  | nil => simp
  | cons i is => simp [nesting_eq]

/-! ## The listing determines the body -/

/-- The listing of a body starts at no depth. -/
theorem head_nestingList {is : List Inst} {e : List (Nat × Operand) × Inst}
    (he : (nestingList is).head? = some e) : e.1 = [] := by
  cases is with
  | nil => simp at he
  | cons i is =>
      rw [nestingList_cons, nesting_eq, List.cons_append, List.head?_cons, Option.some.injEq] at he
      rw [← he]

/-- Two listings of what loops hold, each followed by the listing of a body, split the same way:
the first part is all deeper than the loops' own level, and the second starts at it. -/
theorem append_eq_append_of_deeper :
    ∀ {A A' B B' : List (List (Nat × Operand) × Inst)},
      (∀ e ∈ A, e.1 ≠ []) → (∀ e ∈ A', e.1 ≠ []) →
      (∀ e ∈ B.head?, e.1 = []) → (∀ e ∈ B'.head?, e.1 = []) →
      A ++ B = A' ++ B' → A = A' ∧ B = B'
  | [], [], _, _, _, _, _, _, h => ⟨rfl, h⟩
  | [], a' :: A', B, B', _, hA', hB, _, h => by
      subst h
      exact absurd (hB a' (by simp)) (hA' a' List.mem_cons_self)
  | a :: A, [], B, B', hA, _, _, hB', h => by
      subst h
      exact absurd (hB' a (by simp)) (hA a List.mem_cons_self)
  | a :: A, a' :: A', B, B', hA, hA', hB, hB', h => by
      simp only [List.cons_append, List.cons.injEq] at h
      obtain ⟨rfl, h⟩ := h
      obtain ⟨rfl, rfl⟩ := append_eq_append_of_deeper (fun e he => hA e (List.mem_cons_of_mem a he))
        (fun e he => hA' e (List.mem_cons_of_mem a he)) hB hB' h
      exact ⟨rfl, rfl⟩

/-- What an instruction holds is listed deeper than the instruction itself. -/
theorem deeper_inner (i : Inst) : ∀ e ∈ (nestingList (inner i)).map (under (innerLoops i)), e.1 ≠ [] := by
  intro e he
  obtain ⟨e', -, rfl⟩ := List.mem_map.mp he
  by_cases hi : inner i = []
  · rw [hi, nestingList_nil] at he
    cases he
  · simp [under, innerLoops_ne_nil hi]

theorem length_nestingList_cons (i : Inst) (is : List Inst) :
    (nestingList (i :: is)).length = 1 + (nestingList (inner i)).length + (nestingList is).length := by
  simp [nesting_eq]
  omega

/-- Bodies with listings no longer than `n` are equal when their listings are; by induction on
`n`, since the body of a loop and the rest after it both have shorter listings. -/
theorem eq_of_nestingList_eq : ∀ (n : Nat) {xs ys : List Inst},
    (nestingList xs).length ≤ n → nestingList xs = nestingList ys → xs = ys
  | 0, xs, ys, hn, h => by
      have hx : nestingList xs = [] := List.eq_nil_of_length_eq_zero (by omega)
      rw [hx, eq_comm, nestingList_eq_nil] at h
      rw [nestingList_eq_nil.mp hx, h]
  | n + 1, [], ys, _, h => by
      rw [nestingList_nil, eq_comm, nestingList_eq_nil] at h
      exact h.symm
  | n + 1, x :: xs, [], _, h => by
      rw [nestingList_nil, nestingList_eq_nil] at h
      exact h
  | n + 1, x :: xs, y :: ys, hn, h => by
      have hlen := length_nestingList_cons x xs
      rw [nestingList_cons, nestingList_cons, nesting_eq, nesting_eq, List.cons_append, List.cons_append,
        List.cons.injEq, Prod.mk.injEq] at h
      obtain ⟨⟨-, hhead⟩, hrest⟩ := h
      -- what `x` holds ends where the listing of `xs` starts, back at the level of `x`
      obtain ⟨hinner, htail⟩ := append_eq_append_of_deeper (deeper_inner x) (deeper_inner y)
        (fun e he => head_nestingList (Option.mem_def.mp he))
        (fun e he => head_nestingList (Option.mem_def.mp he)) hrest
      rw [innerLoops_of_header_eq hhead] at hinner
      have hbody := eq_of_nestingList_eq n (by omega) (List.map_injective_iff.mpr (under_injective _) hinner)
      rw [eq_of_header_inner hhead hbody, eq_of_nestingList_eq n (by omega) htail]

/-- A body is determined by its listing. -/
theorem nestingList_injective : Function.Injective nestingList :=
  fun _ _ h => eq_of_nestingList_eq _ le_rfl h

/-! ## Substituting operands at every depth -/

mutual
/-- An instruction with every operand it reads replaced by `g`, in its own operands, its bound
if it is a loop, and at every depth of its body. -/
def substOperands (g : Operand → Operand) : Inst → Inst
  | .loop v b body => .loop v (g b) (substOperandsList g body)
  | i => mapOperands g i

/-- A body with every operand replaced by `g` at every depth. -/
def substOperandsList (g : Operand → Operand) : List Inst → List Inst
  | [] => []
  | i :: is => substOperands g i :: substOperandsList g is
end

/-- An entry of the listing with its operands and the bounds of the loops around it replaced. -/
def substEntry (g : Operand → Operand) (e : List (Nat × Operand) × Inst) : List (Nat × Operand) × Inst :=
  (e.1.map fun h => (h.1, g h.2), mapOperands g e.2)

theorem substEntry_under (g : Operand → Operand) (p : List (Nat × Operand)) (e : List (Nat × Operand) × Inst) :
    substEntry g (under p e) = under (p.map fun h => (h.1, g h.2)) (substEntry g e) := by
  simp [substEntry, under]

mutual
theorem nesting_substOperands (g : Operand → Operand) :
    ∀ i : Inst, nesting (substOperands g i) = (nesting i).map (substEntry g)
  | .loop v b body => by
      simp only [substOperands, nesting, List.map_cons, List.map_map, nestingList_substOperandsList g body,
        Function.comp_def, substEntry_under]
      simp [substEntry, mapOperands]
  | .bin .. | .load .. | .store .. | .alloca .. | .memcpy .. | .call .. | .barrier | .printf ..
  | .placeholder .. | .ret => by simp [substOperands, nesting, substEntry, mapOperands]

/-- Substituting operands at every depth rewrites the operands of every listed instruction and
the bounds of the loops around it, and keeps the order, the depths and the loop variables. -/
theorem nestingList_substOperandsList (g : Operand → Operand) :
    ∀ is : List Inst, nestingList (substOperandsList g is) = (nestingList is).map (substEntry g)
  | [] => by simp [substOperandsList]
  | i :: is => by
      simp only [substOperandsList, nestingList_cons, List.map_append, nesting_substOperands g i,
        nestingList_substOperandsList g is]
end

/-! ## Deleting instructions at every depth -/

mutual
/-- An instruction with the instructions `keep` rejects deleted from every depth of its body. -/
def prune (keep : Inst → Bool) : Inst → Inst
  | .loop v b body => .loop v b (pruneList keep body)
  | i => i

/-- A body with the instructions `keep` rejects deleted at every depth. -/
def pruneList (keep : Inst → Bool) : List Inst → List Inst
  | [] => []
  | i :: is => if keep i then prune keep i :: pruneList keep is else pruneList keep is
end

section Prune

variable {keep : Inst → Bool}

mutual
/-- An instruction's entries that pass the test are the listing of what pruning leaves of it. -/
theorem filter_nesting (hloop : ∀ v b body, keep (.loop v b body) = true) :
    ∀ i : Inst, (nesting i).filter (keep ·.2) = if keep i then nesting (prune keep i) else []
  | .loop v b body => by
      simp [hloop, prune, nesting, List.filter_map, Function.comp_def, nestingList_pruneList hloop body]
  | .bin .. | .load .. | .store .. | .alloca .. | .memcpy .. | .call .. | .barrier | .printf ..
  | .placeholder .. | .ret => by
      cases h : keep _ <;> simp [prune, nesting, h]

/-- Deleting the instructions a test rejects at every depth, when it keeps every loop, drops
exactly their entries from the listing and keeps the others in order, at their depths. -/
theorem nestingList_pruneList (hloop : ∀ v b body, keep (.loop v b body) = true) :
    ∀ is : List Inst, nestingList (pruneList keep is) = (nestingList is).filter (keep ·.2)
  | [] => by simp [pruneList]
  | i :: is => by
      rw [nestingList_cons, List.filter_append, filter_nesting hloop i, pruneList]
      split <;> simp [nestingList_pruneList hloop is]
end

end Prune

/-! ## The one-pass rewrite -/

mutual
/-- Rewriting an instruction's operands by `rewrite`, with `keep` deciding what stays in nested
bodies, substitutes in what `keep` leaves of it. -/
theorem rewrite_mapOperands (g : Operand → Operand) (keep : Inst → Bool) :
    ∀ i : Inst, rewrite (mapOperands g) keep i = substOperands g (prune keep i)
  | .loop v b body => by
      simp [rewrite, mapOperands, prune, substOperands, rewriteList_mapOperands g keep body]
  | .bin .. | .load .. | .store .. | .alloca .. | .memcpy .. | .call .. | .barrier | .printf ..
  | .placeholder .. | .ret => by simp [rewrite, prune, substOperands]

/-- The one-pass rewrite of operands, deleting what `keep` rejects, is the deletion at every
depth followed by the substitution at every depth. -/
theorem rewriteList_mapOperands (g : Operand → Operand) (keep : Inst → Bool) :
    ∀ is : List Inst, rewriteList (mapOperands g) keep is = substOperandsList g (pruneList keep is)
  | [] => by simp [rewriteList, pruneList, substOperandsList]
  | i :: is => by
      simp only [rewriteList, pruneList]
      split <;> simp [substOperandsList, rewrite_mapOperands g keep i, rewriteList_mapOperands g keep is]
end

end Inst

end KernelLaunch
