import KernelLaunch.Proofs.Launch.Room
import KernelLaunch.Proofs.Pass.Routing
import KernelLaunch.Proofs.Pass.Skips

/-!
# Handles read and registers defined

What a body reads and defines bounds what deriving a body from it spends. The handle references a
body reads are kept strictly ordered, by kind and then by dimension (`Function.pairwise_handleRefs`),
so a body that passes the device's check, on a validated device, reads at most 27 of them
(`Function.length_handleRefs_le`). A body whose registers are all below a word bound has a register
count (`Function.regCount?_ok`), rewriting operands keeps the registers a body defines
(`Inst.map_def?_preorderList_rewriteList`), and a builder defines only registers it has handed out
(`Builder.DefsBelowNext`).
-/

namespace KernelLaunch

/-! ## The order of handle references -/

namespace HandleRef

/-- The derived equality test holds of a reference and itself. -/
theorem beq_self (h : HandleRef) : (h == h) = true := by
  obtain ⟨kind, dim⟩ := h
  cases kind <;> simp [BEq.beq, instBEqHandleRef.beq, instBEqHandle.beq]

theorem index_injective {a b : Handle} (h : a.index = b.index) : a = b := by
  cases a <;> cases b <;> first | rfl | cases h

theorem lt_trans {a b c : HandleRef} (hab : lt a b = true) (hbc : lt b c = true) : lt a c = true := by
  simp only [lt, Bool.or_eq_true, decide_eq_true_eq, Bool.and_eq_true, beq_iff_eq] at *
  omega

/-- Of two different references, one comes first. -/
theorem lt_of_not_lt {a b : HandleRef} (h : lt a b = false) (hne : (a == b) = false) : lt b a = true := by
  simp only [lt, Bool.or_eq_false_iff, decide_eq_false_iff_not, Bool.and_eq_false_iff, beq_eq_false_iff_ne] at h
  simp only [lt, Bool.or_eq_true, decide_eq_true_eq, Bool.and_eq_true, beq_iff_eq]
  by_contra hba
  have hk : a.kind = b.kind := index_injective (by omega)
  have hd : a.dim = b.dim := by omega
  have : a = b := by cases a; cases b; simp_all
  rw [this, beq_self] at hne
  cases hne

theorem mem_insertSorted {h x : HandleRef} : ∀ {l : List HandleRef}, x ∈ insertSorted h l → x = h ∨ x ∈ l
  | [], hx => .inl (List.mem_singleton.mp hx)
  | g :: gs, hx => by
      unfold insertSorted at hx
      split at hx
      · exact List.mem_cons.mp hx
      · split at hx
        · exact .inr hx
        · rcases List.mem_cons.mp hx with rfl | hx
          · exact .inr List.mem_cons_self
          · exact (mem_insertSorted hx).imp_right (List.mem_cons_of_mem g)

/-- Inserting keeps a list strictly ordered. -/
theorem pairwise_insertSorted (h : HandleRef) :
    ∀ {l : List HandleRef}, l.Pairwise (lt · · = true) → (insertSorted h l).Pairwise (lt · · = true)
  | [], _ => List.pairwise_singleton _ h
  | g :: gs, hl => by
      have ⟨hg, hgs⟩ := List.pairwise_cons.mp hl
      unfold insertSorted
      split
      · rename_i hhg
        refine .cons (fun x hx => ?_) hl
        rcases List.mem_cons.mp hx with rfl | hx
        · exact hhg
        · exact lt_trans hhg (hg x hx)
      · split
        · exact hl
        · rename_i hhg hne
          have hgh := lt_of_not_lt (Bool.eq_false_iff.mpr hhg) (Bool.eq_false_iff.mpr hne)
          refine .cons (fun x hx => ?_) (pairwise_insertSorted h hgs)
          rcases mem_insertSorted hx with rfl | hx
          · exact hgh
          · exact hg x hx

/-- The place of a reference of dimension below three among all such: kinds in order, three
dimensions each. -/
def key (h : HandleRef) : Nat := 3 * h.kind.index + h.dim

theorem key_lt {a : HandleRef} (ha : a.dim < 3) : a.key < 27 := by
  have : a.kind.index < 9 := by cases a.kind <;> decide
  unfold key
  omega

theorem key_lt_key {a b : HandleRef} (hab : lt a b = true) (ha : a.dim < 3) : a.key < b.key := by
  simp only [lt, Bool.or_eq_true, decide_eq_true_eq, Bool.and_eq_true, beq_iff_eq] at hab
  unfold key
  omega

end HandleRef

namespace Function

/-- The references a body reads are strictly ordered. -/
theorem pairwise_handleRefs (f : Function) : f.handleRefs.Pairwise (HandleRef.lt · · = true) := by
  unfold handleRefs
  apply List.foldlRecOn (motive := fun acc : List HandleRef => acc.Pairwise (HandleRef.lt · · = true)) _ _ .nil
  intro acc hacc i _
  apply List.foldlRecOn (motive := fun acc : List HandleRef => acc.Pairwise (HandleRef.lt · · = true)) _ _ hacc
  intro acc hacc o _
  split
  · exact HandleRef.pairwise_insertSorted _ hacc
  · exact hacc

/-- A body reads at most 27 references below dimension three: nine kinds, three dimensions each. -/
theorem length_handleRefs_le (f : Function) (hdim : ∀ h ∈ f.handleRefs, h.dim < 3) : f.handleRefs.length ≤ 27 := by
  have hkeys : (f.handleRefs.map HandleRef.key).Nodup := by
    refine List.pairwise_map.mpr (f.pairwise_handleRefs.imp_of_mem fun ha _ hab => ?_)
    exact Nat.ne_of_lt (HandleRef.key_lt_key hab (hdim _ ha))
  have hsub : f.handleRefs.map HandleRef.key ⊆ List.range 27 := fun k hk => by
    obtain ⟨h, hh, rfl⟩ := List.mem_map.mp hk
    exact List.mem_range.mpr (HandleRef.key_lt (hdim h hh))
  simpa using (hkeys.subperm hsub).length_le

/-- Every reference a body with valid handles reads is below the limit checked for its kind. -/
theorem dim_lt_limit_of_validateHandles {c : DeviceConfig} {f : Function}
    (h : f.validateHandles c = .ok ()) {r : HandleRef} (hr : r ∈ f.handleRefs) :
    r.dim < if r.kind.isDimensional then c.maxWorkItemDims else 1 := by
  have hok := forM_except_eq_ok.mp h r hr
  by_contra hge
  simp [Nat.not_lt.mp hge] at hok

/-- On a validated device, every reference a body with valid handles reads is below dimension
three. -/
theorem dim_lt_of_validateHandles {c : DeviceConfig} (hc : c.validate = none) {f : Function}
    (h : f.validateHandles c = .ok ()) : ∀ r ∈ f.handleRefs, r.dim < 3 := by
  intro r hr
  have hdims := (c.widths_of_validate hc).2.2.2
  have hlim := dim_lt_limit_of_validateHandles h hr
  split at hlim <;> omega

end Function

/-! ## Registers a body defines -/

namespace Function

/-- Every register the body defines is below `n`. -/
def DefsBelow (f : Function) (n : Nat) : Prop := ∀ i ∈ f.allInsts, ∀ r ∈ i.def?, r < n

instance (f : Function) (n : Nat) : Decidable (f.DefsBelow n) :=
  inferInstanceAs (Decidable (∀ i ∈ f.allInsts, ∀ r ∈ i.def?, r < n))

/-- A body whose registers are all below a word bound `n` has a register count, at most `n`. -/
theorem regCount?_ok {f : Function} {n : Nat} (hn : n ≤ Word.max32) (h : f.DefsBelow n) :
    ∃ s, f.regCount? = .ok s ∧ s ≤ n := by
  unfold regCount?
  refine (foldlM_budget (I := fun _ s => s ≤ n) (c := 0) _ (fun s i k hi hs => ?_) 0 0 (Nat.zero_le n)).imp
    fun _ h => h
  cases hd : i.def? with
  | none => exact ⟨s, rfl, hs⟩
  | some r =>
      have hr := h i hi r hd
      exact ⟨max s (r + 1), by simp [show ¬ r + 1 > Word.max32 by omega]; rfl, max_le hs hr⟩

end Function

namespace Inst

@[simp] theorem def?_mapOperands (g : Operand → Operand) (i : Inst) : (mapOperands g i).def? = i.def? := by
  cases i <;> rfl

section Rewrite

variable {f : Inst → Inst}

theorem map_def?_preorder_of_not_loop (hf : KeepsLoops f) (hdef : ∀ i, (f i).def? = i.def?) {i : Inst}
    (hi : ¬ i.IsLoop) : (preorder (f i)).map def? = (preorder i).map def? := by
  rw [preorder_of_not_loop fun h => hi (hf.not_loop i h), preorder_of_not_loop hi]
  simp [hdef]

mutual

/-- A rewrite that keeps loops and what every instruction defines keeps the registers an
instruction defines, in pre-order. -/
theorem map_def?_preorder_rewrite (hf : KeepsLoops f) (hdef : ∀ i, (f i).def? = i.def?) :
    ∀ i : Inst, (preorder (rewrite f (fun _ => true) i)).map def? = (preorder i).map def?
  | .loop v b body => by
      obtain ⟨b', hb'⟩ := hf.loop v b []
      simp only [rewrite, hb', preorder, List.map_cons, def?, map_def?_preorderList_rewriteList hf hdef body]
  | .bin .. | .load .. | .store .. | .alloca .. | .memcpy .. | .call .. | .barrier | .printf ..
  | .placeholder .. | .ret => map_def?_preorder_of_not_loop hf hdef (by simp [IsLoop])

/-- A rewrite that keeps loops and what every instruction defines keeps the registers a body
defines, loop bodies included, in pre-order. -/
theorem map_def?_preorderList_rewriteList (hf : KeepsLoops f) (hdef : ∀ i, (f i).def? = i.def?) :
    ∀ is : List Inst, (preorderList (rewriteList f (fun _ => true) is)).map def? = (preorderList is).map def?
  | [] => rfl
  | i :: is => by
      simp only [rewriteList, if_true, preorderList, List.map_append, map_def?_preorder_rewrite hf hdef i,
        map_def?_preorderList_rewriteList hf hdef is]

end

end Rewrite

end Inst

namespace Builder

variable {b : Builder}

/-- Every instruction the builder holds defines, if anything, a register it has handed out. -/
def DefsBelowNext (b : Builder) : Prop :=
  ∀ o ∈ b.open_, ∀ i ∈ o.insts.toList, ∀ r, i.def? = some r → r < b.next

theorem defsBelowNext_startingAt (n : Nat) : (startingAt n).DefsBelowNext := by
  simp [DefsBelowNext, startingAt]

theorem DefsBelowNext.load (h : b.DefsBelowNext) (ty : Ty) (ptr : Operand) (off : Nat) (rng : Option ValueRange) :
    (b.load ty ptr off rng).2.DefsBelowNext := by
  intro o ho i hi r hr
  show r < (b.define _).2.next
  rw [define_next]
  change o ∈ (b.define _).2.open_ at ho
  rw [define_open] at ho
  rcases hb : b.open_ with _ | ⟨o₀, os⟩
  · rw [hb] at ho
    cases ho
  rw [hb, pushTop_cons] at ho
  rcases List.mem_cons.mp ho with rfl | ho
  · -- the innermost body, with the load last
    rcases List.mem_append.mp (Array.toList_push ▸ hi) with hi | hi
    · exact Nat.lt_succ_of_lt (h o₀ (hb ▸ List.mem_cons_self) i hi r hr)
    · rw [List.mem_singleton.mp hi] at hr
      cases hr
      exact Nat.lt_succ_self _
  · exact Nat.lt_succ_of_lt (h o (hb ▸ List.mem_cons_of_mem _ ho) i hi r hr)

theorem DefsBelowNext.finish (h : b.DefsBelowNext) (hl : b.LoadsOnly) :
    ∀ i ∈ b.finish, ∀ r, i.def? = some r → r < b.next := by
  obtain ⟨insts, hopen, -⟩ := hl
  rw [finish_of_open_eq b _ hopen]
  exact h _ (hopen ▸ List.mem_singleton_self _)

end Builder

end KernelLaunch
