import KernelLaunch.Proofs.Interp.Memory
import KernelLaunch.Context
/-!
# Runs of a kernel that reads its handles

A kernel reads who it is (its local id, its group id, the launch shape) from implicit handles,
and the interpreter stops on every such read. The reference interpreter here gives the handles
values instead: `Reference.block` runs a body exactly as `Machine.block` does, except that a
handle operand evaluates to the value an environment gives it. For one work-item of a launch the
environment is `Reference.handleEnv`: a local id is the work-item's own, every other handle is its
element of the context record, read as the record's layout reads it and decoded as a pointer for
the output buffer's pointer fields.

Comparing a derived body with its kernel means comparing two runs step by step. `Lockstep R x y`
says that from every machine the two computations end alike: both answer, with answers related by
`R`, or both stop with the same stop, and either way they leave the same machine. It is closed
under `pure`, `bind`, conditionals and the interpreter's loop iteration, so a comparison of two
instruction runs is assembled from comparisons of their parts.
-/

namespace KernelLaunch

open Machine

namespace Reference

section Interpreter

variable (env : HandleRef → Value)

/-- The value of an operand: a handle has the value the environment gives it, every other
operand is read from the frame. -/
def eval (fr : Frame) : Operand → Exec Value
  | .handle h => pure (env h)
  | o => fr.eval o

/-- The word an operand holds. -/
def int (fr : Frame) (o : Operand) : Exec Nat := do
  match ← eval env fr o with
  | .int n => pure n
  | v => stop (.typeMismatch fr.func.name ("expected an integer, found " ++ v.render))

/-- The pointer an operand holds. -/
def pointer (fr : Frame) (o : Operand) : Exec Pointer := do
  match ← eval env fr o with
  | .ptr p => pure p
  | v => stop (.badPointer fr.func.name v.render)

mutual
/-- Runs a body whose handles hold `env`, as `Machine.block` runs one. -/
def block (callFn : String → List Value → Exec (Option Value)) (fr : Frame) :
    List Inst → Exec (Flow × Frame)
  | [] => pure (.next, fr)
  | i :: is => do
      tick
      let (flow, fr) ← inst callFn fr i
      if flow == .ret then pure (.ret, fr) else block callFn fr is

/-- Runs one instruction whose handles hold `env`, as `Machine.inst` runs one. -/
def inst (callFn : String → List Value → Exec (Option Value)) (fr : Frame) : Inst → Exec (Flow × Frame)
  | .bin d op l r => do
      let a ← eval env fr l
      let b ← eval env fr r
      let v ← binary fr.func.name op a b
      pure (.next, fr.bind d v)
  | .load d ty p off _ => do
      let q := (← pointer env fr p).add off
      let v ← loadValue fr.func.name ty q
      pure (.next, fr.bind d v)
  | .store ty p off v => do
      let q := (← pointer env fr p).add off
      let x ← eval env fr v
      storeValue fr.func.name ty q x
      pure (.next, fr)
  | .alloca d sp size _ => do
      let n ← int env fr size
      let q ← alloc sp n
      pure (.next, fr.bind d (.ptr q))
  | .memcpy dst src off len => do
      let d ← pointer env fr dst
      let s := (← pointer env fr src).add off
      let data ← readBytes s len
      writeBytes d data
      pure (.next, fr)
  | .call d c args => do
      let vs ← args.mapM (eval env fr)
      let r ← callFn c vs
      match d with
      | some reg => pure (.next, fr.bind reg (r.getD (.int 0)))
      | none => pure (.next, fr)
  | .barrier => do
      record .barrier
      pure (.next, fr)
  | .printf fmt args buf => do
      let vs ← args.mapM (eval env fr)
      match buf with
      | some (b, p, c) =>
          let bp ← pointer env fr b
          let pp ← pointer env fr p
          let cap ← int env fr c
          appendOutput bp pp cap vs
      | none => pure ()
      record (.printf fmt vs)
      pure (.next, fr)
  | .placeholder d _ => stop (.undefinedRegister fr.func.name d)
  | .loop v bound body => do
      let n ← int env fr bound
      if body.isEmpty then
        pure (.next, if n == 0 then fr else fr.bind v (.int (n - 1)))
      else iterate (fun fr i => block callFn (fr.bind v (.int i)) body) fr 0 n
  | .ret => pure (.ret, fr)
end

end Interpreter

/-- The value a load of type `ty` from offset `off` of a record's bytes answers: the word there,
decoded as a load of the type decodes it (a pointer type decodes a pointer); zero where the record
holds no such word. -/
def recordValue (ptrBytes : Nat) (record : ByteArray) (ty : Ty) (off : Nat) : Value :=
  match Bytes.readWord record off (ty.size ptrBytes) with
  | .ok raw => valueOfWord ptrBytes ty raw
  | .error _ => .int 0

/-- The values the handles hold for one work-item: a local id is the work-item's own, in its
dimension; every other handle is its element of the context record `record`, as a load of the
element's field reads it at the element's offset of the record's layout on the device. -/
def handleEnv (c : DeviceConfig) (record : ByteArray) (ids : Dims3) (h : HandleRef) : Value :=
  match ContextField.ofHandle? h.kind with
  -- the local id is the one handle without a field in the record
  | none => .int (ids.getD h.dim 0)
  | some f =>
      recordValue c.ptrBytes record ((ContextLayout.ofDevice c).fieldTy f) ((ContextLayout.ofDevice c).offset f h.dim)

end Reference

namespace Machine

variable {α β γ δ : Type}

/-- Two ends of runs alike: both answer, with answers related by `R`, or both stop with the same
stop; and both leave the same machine. -/
def EndsAlike (R : α → β → Prop) : EStateM.Result Stop Machine α → EStateM.Result Stop Machine β → Prop
  | .ok a t, .ok b t' => R a b ∧ t = t'
  | .error e t, .error e' t' => e = e' ∧ t = t'
  | _, _ => False

/-- Two computations that run in lockstep: from every machine they end alike. -/
def Lockstep (R : α → β → Prop) (x : Exec α) (y : Exec β) : Prop :=
  ∀ s, EndsAlike R (x.run s) (y.run s)

namespace Lockstep

variable {R : α → β → Prop} {S : γ → δ → Prop}

/-- A computation runs in lockstep with itself, its answers equal. -/
theorem refl (x : Exec α) : Lockstep (· = ·) x x := by
  intro s
  cases x.run s with
  | ok a t => exact ⟨rfl, rfl⟩
  | error e t => exact ⟨rfl, rfl⟩

theorem pure {a : α} {b : β} (h : R a b) : Lockstep R (pure a) (pure b) :=
  fun _ => ⟨h, rfl⟩

theorem stop {e : ExecError} : Lockstep R (Machine.stop e : Exec α) (Machine.stop e : Exec β) :=
  fun _ => ⟨rfl, rfl⟩

/-- Binds run in lockstep when their first halves do and their second halves do from related
answers. -/
theorem bind {x : Exec α} {y : Exec β} {f : α → Exec γ} {g : β → Exec δ} (hx : Lockstep R x y)
    (hf : ∀ a b, R a b → Lockstep S (f a) (g b)) : Lockstep S (x >>= f) (y >>= g) := by
  intro s
  have h := hx s
  rw [EStateM.run_bind, EStateM.run_bind]
  revert h
  cases x.run s with
  | ok a t =>
      cases y.run s with
      | ok b t' =>
          rintro ⟨hab, rfl⟩
          exact hf a b hab t
      | error e t' => exact False.elim
  | error e t =>
      cases y.run s with
      | ok b t' => exact False.elim
      | error e' t' =>
          rintro ⟨rfl, rfl⟩
          exact ⟨rfl, rfl⟩

/-- Binds of one computation run in lockstep when their second halves do from each answer. -/
theorem bind_same {x : Exec γ} {f : γ → Exec α} {g : γ → Exec β} (hf : ∀ a, Lockstep R (f a) (g a)) :
    Lockstep R (x >>= f) (x >>= g) :=
  (refl x).bind fun a _ hab => hab ▸ hf a

/-- Conditionals on the same test run in lockstep when their branches do. -/
theorem ite {c : Prop} [Decidable c] {x₁ x₂ : Exec α} {y₁ y₂ : Exec β} (h₁ : c → Lockstep R x₁ y₁)
    (h₂ : ¬ c → Lockstep R x₂ y₂) : Lockstep R (if c then x₁ else x₂) (if c then y₁ else y₂) := by
  by_cases hc : c
  · rw [if_pos hc, if_pos hc]
    exact h₁ hc
  · rw [if_neg hc, if_neg hc]
    exact h₂ hc

/-- The flows of two runs agree and their frames are related by `Rel`. -/
def FlowRel (Rel : Frame → Frame → Prop) (p q : Flow × Frame) : Prop := p.1 = q.1 ∧ Rel p.2 q.2

/-- Loop iterations run in lockstep from related frames when every iteration does: the loop
stops after the same iteration on both sides. -/
theorem iterate {Rel : Frame → Frame → Prop} {stepB stepK : Frame → Nat → Exec (Flow × Frame)}
    (hstep : ∀ frB frK i, Rel frB frK → Lockstep (FlowRel Rel) (stepB frB i) (stepK frK i)) :
    ∀ (left : Nat) (frB frK : Frame) (i : Nat), Rel frB frK →
      Lockstep (FlowRel Rel) (iterate stepB frB i left) (iterate stepK frK i left)
  | 0, _, _, _, h => pure ⟨rfl, h⟩
  | left + 1, frB, frK, i, h => by
      simp only [Machine.iterate]
      refine (hstep frB frK i h).bind fun p q hpq => ?_
      obtain ⟨flow, frB'⟩ := p
      obtain ⟨flow', frK'⟩ := q
      obtain ⟨rfl, hrel⟩ := hpq
      exact ite (fun _ => pure ⟨rfl, hrel⟩) fun _ => iterate hstep left frB' frK' (i + 1) hrel

end Lockstep

end Machine

end KernelLaunch
