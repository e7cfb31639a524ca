import KernelLaunch.Proofs.Body.Reference
import KernelLaunch.Proofs.Pass.Substitution
/-!
# A substituted body runs as its kernel

Privatizing replaces every read of a handle by an operand that holds the handle's value: a
parameter, a word, or a register the prelude has loaded. This module compares a body with its
handles substituted, run by the interpreter, against the kernel itself run by the reference
interpreter, which reads the handles from an environment.

The two runs are compared frame by frame under `Frame.Mirrors`: the same function name, the
kernel's arguments first, the same value in every register the kernel may set, and the value of
each handle in the operand put for it. Every operand the kernel reads then reads the same value
on both sides (`Frame.Mirrors.eval_swap`), every instruction that sets a register sets it on
both sides, and so `block_lockstep` runs the two bodies in lockstep: the same steps, the same
memory, the same events, and the same stop if one comes.
-/

namespace KernelLaunch

open Machine

/-! ## Operands -/

namespace Operand

/-- An operand whose value no register below `start` holds, and which is no handle: a parameter,
a word, or a register from `start` on. Setting a register below `start` leaves its value as it
was. -/
def Stable (start : Nat) : Operand → Prop
  | .reg r => start ≤ r
  | .handle _ => False
  | _ => True

/-- An operand of the kernel that the substitution can read: a register below `start`, a
parameter below `n`, a word, or a handle that `values` maps. -/
def Covered (values : List (HandleRef × Operand)) (n start : Nat) : Operand → Prop
  | .reg r => r < start
  | .param p => p < n
  | .imm _ => True
  | .handle h => (Function.lookupHandle values h).isSome

end Operand

/-- An instruction whose operands are covered and which sets, if any, a register below `start`. -/
def Inst.Covered (values : List (HandleRef × Operand)) (n start : Nat) (i : Inst) : Prop :=
  (∀ o ∈ i.operands, o.Covered values n start) ∧ ∀ r ∈ i.def?, r < start

namespace Frame

/-- Reading an operand with a value is answering it. -/
theorem eval_of_value? {fr : Frame} {o : Operand} {v : Value} (h : fr.value? o = some v) :
    fr.eval o = pure v := by
  cases o with
  | reg r =>
      simp only [value?, reg?, Option.map_eq_some_iff] at h
      obtain ⟨⟨k, w⟩, hfind, rfl⟩ := h
      simp only [eval, hfind]
  | param i =>
      simp only [value?] at h
      simp only [eval, h]
  | imm n =>
      cases h
      rfl
  | handle h' => cases h

/-- Reading an operand depends on the frame only through the function's name and the operand's
value. -/
theorem eval_congr {fr fr' : Frame} {o : Operand} (hname : fr.func.name = fr'.func.name)
    (hv : fr.value? o = fr'.value? o) : fr.eval o = fr'.eval o := by
  cases hfr : fr.value? o with
  | some v => rw [eval_of_value? hfr, eval_of_value? (hv ▸ hfr)]
  | none =>
      -- with no value both sides stop, and the stop names only the function
      have hfr' : fr'.value? o = none := hv ▸ hfr
      cases o with
      | reg r =>
          simp only [value?, reg?, Option.map_eq_none_iff] at hfr hfr'
          simp only [eval, hfr, hfr', hname]
      | param i =>
          simp only [value?] at hfr hfr'
          simp only [eval, hfr, hfr', hname]
      | imm n => cases hfr
      | handle h => simp only [eval, hname]

theorem value?_bind_of_stable {fr : Frame} {o : Operand} {start d : Nat} (ho : o.Stable start)
    (hd : d < start) (v : Value) : (fr.bind d v).value? o = fr.value? o := by
  cases o with
  | reg r => exact reg?_bind_ne fr v (by simp only [Operand.Stable] at ho; omega)
  | param i => rfl
  | imm n => rfl
  | handle h => exact ho.elim

section Mirrors

variable (env : HandleRef → Value) (values : List (HandleRef × Operand)) (n start : Nat)

/-- A frame `frB` of a substituted body mirrors a frame `frK` of its kernel run with handles from
`env`: both run a function of one name, `frB` has the kernel's arguments first, both hold the same
value in every register below `start`, and each operand put for a handle is stable and holds the
handle's value. -/
structure Mirrors (frB frK : Frame) : Prop where
  name : frB.func.name = frK.func.name
  args : ∀ i < n, frB.args[i]? = frK.args[i]?
  regs : ∀ r < start, frB.reg? r = frK.reg? r
  stable : ∀ h o, Function.lookupHandle values h = some o → o.Stable start
  handles : ∀ h o, Function.lookupHandle values h = some o → frB.value? o = some (env h)

variable {env values n start} {frB frK : Frame}

/-- Setting a register below `start` on both sides keeps the mirror. -/
theorem Mirrors.bind (hm : Mirrors env values n start frB frK) {d : Nat} (hd : d < start) (v : Value) :
    Mirrors env values n start (frB.bind d v) (frK.bind d v) where
  name := hm.name
  args := hm.args
  regs r hr := by
    by_cases hrd : r = d
    · subst hrd
      simp only [reg?_bind_self]
    · rw [reg?_bind_ne _ _ hrd, reg?_bind_ne _ _ hrd]
      exact hm.regs r hr
  stable := hm.stable
  handles h o hl := by
    rw [value?_bind_of_stable (hm.stable h o hl) hd]
    exact hm.handles h o hl

/-- A covered operand, substituted, reads on the mirror what the operand reads on the kernel's
frame. -/
theorem Mirrors.eval_swap (hm : Mirrors env values n start frB frK) {o : Operand}
    (ho : o.Covered values n start) : frB.eval (handleSwap values o) = Reference.eval env frK o := by
  cases o with
  | reg r => exact eval_congr hm.name (hm.regs r ho)
  | param i => exact eval_congr hm.name (hm.args i ho)
  | imm k => rfl
  | handle h =>
      obtain ⟨o, hl⟩ := Option.isSome_iff_exists.mp ho
      simp only [handleSwap, hl, Option.getD_some]
      exact eval_of_value? (hm.handles h o hl)

theorem Mirrors.int_swap (hm : Mirrors env values n start frB frK) {o : Operand}
    (ho : o.Covered values n start) : frB.int (handleSwap values o) = Reference.int env frK o := by
  unfold Frame.int Reference.int
  rw [hm.eval_swap ho]
  congr 1
  funext v
  cases v <;> simp only [hm.name]

theorem Mirrors.pointer_swap (hm : Mirrors env values n start frB frK) {o : Operand}
    (ho : o.Covered values n start) :
    frB.pointer (handleSwap values o) = Reference.pointer env frK o := by
  unfold Frame.pointer Reference.pointer
  rw [hm.eval_swap ho]
  congr 1
  funext v
  cases v <;> simp only [hm.name]

theorem Mirrors.mapM_swap (hm : Mirrors env values n start frB frK) :
    ∀ {os : List Operand}, (∀ o ∈ os, o.Covered values n start) →
      (os.map (handleSwap values)).mapM frB.eval = os.mapM (Reference.eval env frK)
  | [], _ => rfl
  | o :: os, hos => by
      simp only [List.map_cons, List.mapM_cons, hm.eval_swap (hos o List.mem_cons_self),
        hm.mapM_swap fun o' ho' => hos o' (List.mem_cons_of_mem o ho')]

end Mirrors

end Frame

/-! ## Instructions and bodies -/

theorem Inst.isEmpty_substOperandsList (g : Operand → Operand) (is : List Inst) :
    (substOperandsList g is).isEmpty = is.isEmpty := by
  cases is <;> rfl

section Lockstep

variable {env : HandleRef → Value} {values : List (HandleRef × Operand)} {n start : Nat}
  (callFn : String → List Value → Exec (Option Value))

open Lockstep (FlowRel bind_same)

mutual

/-- An instruction whose instructions are all covered runs substituted, from a mirror, in
lockstep with the kernel's instruction, and the frames they leave mirror each other. -/
theorem inst_lockstep :
    ∀ {frB frK : Frame} (i : Inst), Frame.Mirrors env values n start frB frK →
      (∀ j ∈ Inst.preorder i, j.Covered values n start) →
      Lockstep (FlowRel (Frame.Mirrors env values n start))
        (Machine.inst callFn frB (Inst.substOperands (handleSwap values) i)) (Reference.inst env callFn frK i)
  | frB, frK, .loop v bound body, hm, hcov => by
      have hhead := hcov _ (List.mem_cons_self ..)
      have hbody : ∀ j ∈ Inst.preorderList body, j.Covered values n start :=
        fun j hj => hcov j (List.mem_cons_of_mem _ hj)
      have hv : v < start := hhead.2 v rfl
      simp only [Inst.substOperands, Machine.inst, Reference.inst,
        hm.int_swap (hhead.1 bound (List.mem_singleton_self _)), Inst.isEmpty_substOperandsList]
      refine bind_same fun k => Lockstep.ite (fun _ => Lockstep.pure ⟨rfl, ?_⟩) fun _ => ?_
      · split
        · exact hm
        · exact hm.bind hv _
      · -- each iteration runs the loop body from mirrors that bind the loop variable
        exact Lockstep.iterate (fun frB' frK' i hm' => block_lockstep body (hm'.bind hv (.int i)) hbody)
          k frB frK 0 hm
  | frB, frK, .bin d op l r, hm, hcov => by
      have hi := hcov _ (List.mem_singleton_self _)
      simp only [Inst.substOperands, Inst.mapOperands, Machine.inst, Reference.inst,
        hm.eval_swap (hi.1 l (by simp [Inst.operands])), hm.eval_swap (hi.1 r (by simp [Inst.operands])),
        hm.name]
      exact bind_same fun _ => bind_same fun _ => bind_same fun w => Lockstep.pure ⟨rfl, hm.bind (hi.2 d rfl) w⟩
  | frB, frK, .load d ty p off rng, hm, hcov => by
      have hi := hcov _ (List.mem_singleton_self _)
      simp only [Inst.substOperands, Inst.mapOperands, Machine.inst, Reference.inst,
        hm.pointer_swap (hi.1 p (by simp [Inst.operands])), hm.name]
      exact bind_same fun _ => bind_same fun w => Lockstep.pure ⟨rfl, hm.bind (hi.2 d rfl) w⟩
  | frB, frK, .store ty p off v, hm, hcov => by
      have hi := hcov _ (List.mem_singleton_self _)
      simp only [Inst.substOperands, Inst.mapOperands, Machine.inst, Reference.inst,
        hm.pointer_swap (hi.1 p (by simp [Inst.operands])), hm.eval_swap (hi.1 v (by simp [Inst.operands])),
        hm.name]
      exact bind_same fun _ => bind_same fun _ => bind_same fun _ => Lockstep.pure ⟨rfl, hm⟩
  | frB, frK, .alloca d sp size al, hm, hcov => by
      have hi := hcov _ (List.mem_singleton_self _)
      simp only [Inst.substOperands, Inst.mapOperands, Machine.inst, Reference.inst,
        hm.int_swap (hi.1 size (by simp [Inst.operands]))]
      exact bind_same fun _ => bind_same fun q => Lockstep.pure ⟨rfl, hm.bind (hi.2 d rfl) _⟩
  | frB, frK, .memcpy dst src off len, hm, hcov => by
      have hi := hcov _ (List.mem_singleton_self _)
      simp only [Inst.substOperands, Inst.mapOperands, Machine.inst, Reference.inst,
        hm.pointer_swap (hi.1 dst (by simp [Inst.operands])), hm.pointer_swap (hi.1 src (by simp [Inst.operands]))]
      exact bind_same fun _ => bind_same fun _ => bind_same fun _ => bind_same fun _ => Lockstep.pure ⟨rfl, hm⟩
  | frB, frK, .call d c args, hm, hcov => by
      have hargs : ∀ o ∈ args, o.Covered values n start := (hcov _ (List.mem_singleton_self _)).1
      have hd : ∀ r ∈ d, r < start := (hcov _ (List.mem_singleton_self _)).2
      simp only [Inst.substOperands, Inst.mapOperands, Machine.inst, Reference.inst, hm.mapM_swap hargs]
      refine bind_same fun _ => bind_same fun w => ?_
      cases d with
      | none => exact Lockstep.pure ⟨rfl, hm⟩
      | some reg => exact Lockstep.pure ⟨rfl, hm.bind (hd reg rfl) _⟩
  | frB, frK, .barrier, hm, _ => by
      simp only [Inst.substOperands, Inst.mapOperands, Machine.inst, Reference.inst]
      exact bind_same fun _ => Lockstep.pure ⟨rfl, hm⟩
  | frB, frK, .printf fmt args buf, hm, hcov => by
      have hi := hcov _ (List.mem_singleton_self _)
      cases buf with
      | none =>
          have hargs : ∀ o ∈ args, o.Covered values n start := by simpa [Inst.operands] using hi.1
          simp only [Inst.substOperands, Inst.mapOperands, Option.map_none, Machine.inst, Reference.inst,
            hm.mapM_swap hargs]
          exact bind_same fun _ => bind_same fun _ => Lockstep.pure ⟨rfl, hm⟩
      | some out =>
          obtain ⟨b, p, c⟩ := out
          have hops : ∀ o ∈ args ++ [b, p, c], o.Covered values n start := hi.1
          simp only [Inst.substOperands, Inst.mapOperands, Option.map_some, Machine.inst, Reference.inst,
            hm.mapM_swap fun o ho => hops o (List.mem_append_left _ ho),
            hm.pointer_swap (hops b (by simp)), hm.pointer_swap (hops p (by simp)), hm.int_swap (hops c (by simp))]
          exact bind_same fun _ => bind_same fun _ => bind_same fun _ => bind_same fun _ => bind_same fun _ =>
            bind_same fun _ => Lockstep.pure ⟨rfl, hm⟩
  | frB, frK, .placeholder d name, hm, _ => by
      simp only [Inst.substOperands, Inst.mapOperands, Machine.inst, Reference.inst, hm.name]
      exact Lockstep.stop
  | frB, frK, .ret, hm, _ => by
      simp only [Inst.substOperands, Inst.mapOperands, Machine.inst, Reference.inst]
      exact Lockstep.pure ⟨rfl, hm⟩

/-- A body whose instructions are all covered runs substituted, from a mirror, in lockstep with
the kernel's body: step by step, each instruction of one against the same instruction of the
other, both return at the same instruction or stop with the same stop. -/
theorem block_lockstep :
    ∀ {frB frK : Frame} (is : List Inst), Frame.Mirrors env values n start frB frK →
      (∀ j ∈ Inst.preorderList is, j.Covered values n start) →
      Lockstep (FlowRel (Frame.Mirrors env values n start))
        (Machine.block callFn frB (Inst.substOperandsList (handleSwap values) is))
        (Reference.block env callFn frK is)
  | _, _, [], hm, _ => Lockstep.pure ⟨rfl, hm⟩
  | frB, frK, i :: is, hm, hcov => by
      simp only [Inst.substOperandsList, Machine.block, Reference.block]
      refine bind_same fun _ => (inst_lockstep i hm fun j hj => hcov j ?_).bind fun p q hpq => ?_
      · simp only [Inst.preorderList]
        exact List.mem_append_left _ hj
      obtain ⟨flow, frB'⟩ := p
      obtain ⟨flow', frK'⟩ := q
      obtain ⟨rfl, hm'⟩ := hpq
      refine Lockstep.ite (fun _ => Lockstep.pure ⟨rfl, hm'⟩) fun _ => block_lockstep is hm' fun j hj => hcov j ?_
      simp only [Inst.preorderList]
      exact List.mem_append_right _ hj

end

end Lockstep

end KernelLaunch
