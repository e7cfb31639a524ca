import Mathlib
import KernelLaunch.Interp.Machine
/-!
# Successful runs of the interpreter

A run of an `Exec` computation from a machine either answers a value together with the machine
it leaves, or stops. The lemmas here take successful runs apart. Read `run_bind_eq_ok` first:
a bind succeeds exactly when its first half succeeds and its second half succeeds from the
machine the first half left, and every later proof about a run peels it apart this way. The
other lemmas say what each primitive of the interpreter does when it succeeds, and what reading
an operand of a frame answers, through the pure view `Frame.value?`.
-/

namespace KernelLaunch

namespace Machine

variable {α β : Type} {s t : Machine}

/-- A bind succeeds exactly when both of its halves succeed, one after the other. -/
theorem run_bind_eq_ok {x : Exec α} {f : α → Exec β} {b : β} :
    (x >>= f).run s = .ok b t ↔ ∃ a u, x.run s = .ok a u ∧ (f a).run u = .ok b t := by
  rw [EStateM.run_bind]
  constructor
  · intro h
    cases hx : x.run s with
    | ok a u =>
        rw [hx] at h
        exact ⟨a, u, rfl, h⟩
    | error e u =>
        rw [hx] at h
        cases h
  · rintro ⟨a, u, hx, hf⟩
    rw [hx]
    exact hf

/-- A pure computation succeeds with its value and leaves the machine as it was. -/
theorem run_pure_eq_ok {a b : α} : (pure a : Exec α).run s = .ok b t ↔ a = b ∧ s = t := by
  rw [EStateM.run_pure, EStateM.Result.ok.injEq]

/-- Reading the machine and going on is going on from it. -/
theorem run_get_bind {f : Machine → Exec β} : (get >>= f).run s = (f s).run s := rfl

/-- A stop never succeeds. -/
theorem run_stop_ne_ok {e : ExecError} {a : α} : (stop e : Exec α).run s ≠ .ok a t := by
  intro h
  cases h

/-- A throw never succeeds. -/
theorem run_throw_ne_ok {e : Stop} {a : α} : (throw e : Exec α).run s ≠ .ok a t := by
  intro h
  cases h

/-- Recording an event appends it to the machine's events. -/
theorem run_record (e : Event) :
    (record e).run s = .ok () { s with events := s.events.push e } := rfl

/-- A fault check succeeds exactly on a result, and leaves the machine as it was. -/
theorem run_faultOf_eq_ok {r : Except Fault α} {a : α} :
    (faultOf r).run s = .ok a t ↔ r = .ok a ∧ t = s := by
  cases r with
  | error f =>
      constructor
      · intro h
        cases h
      · rintro ⟨h, -⟩
        cases h
  | ok b =>
      change EStateM.Result.ok b s = .ok a t ↔ _
      rw [EStateM.Result.ok.injEq, Except.ok.injEq]
      exact ⟨fun ⟨h₁, h₂⟩ => ⟨h₁, h₂.symm⟩, fun ⟨h₁, h₂⟩ => ⟨h₁, h₂.symm⟩⟩

/-- A step that succeeds is one the limit still allows, and it is counted. -/
theorem run_tick_eq_ok :
    tick.run s = .ok () t ↔ s.steps + 1 ≤ s.stepLimit ∧ t = { s with steps := s.steps + 1 } := by
  unfold tick
  rw [EStateM.run_bind, EStateM.run_get]
  by_cases h : s.steps + 1 > s.stepLimit
  · simp only [h, if_true]
    constructor
    · intro hrun
      cases hrun
    · intro hle
      omega
  · simp only [h, if_false]
    change EStateM.Result.ok () { s with steps := s.steps + 1 } = .ok () t ↔ _
    rw [EStateM.Result.ok.injEq]
    constructor
    · rintro ⟨-, rfl⟩
      exact ⟨by omega, rfl⟩
    · rintro ⟨-, rfl⟩
      exact ⟨rfl, rfl⟩

/-- A new region goes to the end of the machine's regions, and the answer points at its start. -/
theorem run_allocRegion (r : Region) :
    (allocRegion r).run s = .ok ⟨s.regions.size, 0⟩ { s with regions := s.regions.push r } := rfl

/-- An attempt always succeeds, answering how its computation ended and the machine it left. -/
theorem run_attempt (x : Exec α) :
    (attempt x).run s = match x.run s with
      | .ok a u => .ok (.ok a) u
      | .error e u => .ok (.error e) u := by
  change (match x s with | .ok a u => _ | .error e u => _) = _
  rfl

end Machine

namespace Frame

/-- The value a register holds in the frame, if it has been set. -/
def reg? (fr : Frame) (r : Nat) : Option Value := (fr.regs.find? (·.1 == r)).map (·.2)

/-- The value of an operand in the frame, when reading it succeeds: a set register, a passed
argument or a word; a handle has none. -/
def value? (fr : Frame) : Operand → Option Value
  | .reg r => fr.reg? r
  | .param i => fr.args[i]?
  | .imm n => some (.int n)
  | .handle _ => none

@[simp] theorem bind_func (fr : Frame) (r : Nat) (v : Value) : (fr.bind r v).func = fr.func := rfl

@[simp] theorem bind_args (fr : Frame) (r : Nat) (v : Value) : (fr.bind r v).args = fr.args := rfl

@[simp] theorem reg?_bind_self (fr : Frame) (r : Nat) (v : Value) : (fr.bind r v).reg? r = some v := by
  simp [reg?, bind]

theorem reg?_bind_ne (fr : Frame) {r r' : Nat} (v : Value) (h : r' ≠ r) :
    (fr.bind r v).reg? r' = fr.reg? r' := by
  simp only [reg?, bind, List.find?_cons]
  have hne : (r == r') = false := by simpa using Ne.symm h
  rw [hne]
  congr 1
  induction fr.regs with
  | nil => rfl
  | cons p ps ih =>
      by_cases hp : (p.1 != r) = true
      · simp only [List.filter_cons, hp, if_true, List.find?_cons]
        split <;> simp_all
      · simp only [List.filter_cons, hp, if_false, Bool.false_eq_true, List.find?_cons]
        simp only [bne_iff_ne, ne_eq, Decidable.not_not] at hp
        have : (p.1 == r') = false := by simpa [hp] using Ne.symm h
        rw [this]
        exact ih

@[simp] theorem value?_imm (fr : Frame) (n : Nat) : fr.value? (.imm n) = some (.int n) := rfl

@[simp] theorem value?_param (fr : Frame) (i : Nat) : fr.value? (.param i) = fr.args[i]? := rfl

@[simp] theorem value?_reg (fr : Frame) (r : Nat) : fr.value? (.reg r) = fr.reg? r := rfl

/-- Reading an operand succeeds exactly with its value, and leaves the machine as it was. -/
theorem run_eval_eq_ok {fr : Frame} {o : Operand} {s t : Machine} {v : Value} :
    (fr.eval o).run s = .ok v t ↔ fr.value? o = some v ∧ t = s := by
  have hpure : ∀ w : Value, (pure w : Exec Value).run s = .ok v t ↔ some w = some v ∧ t = s := by
    intro w
    rw [Machine.run_pure_eq_ok, Option.some.injEq]
    constructor
    · rintro ⟨rfl, rfl⟩
      exact ⟨rfl, rfl⟩
    · rintro ⟨rfl, rfl⟩
      exact ⟨rfl, rfl⟩
  have hnone : ∀ e : ExecError, (Machine.stop e : Exec Value).run s = .ok v t ↔ none = some v ∧ t = s := by
    intro e
    constructor
    · intro h
      cases h
    · rintro ⟨h, -⟩
      cases h
  cases o with
  | reg r =>
      simp only [eval, value?, reg?]
      cases fr.regs.find? (·.1 == r) with
      | none => exact hnone _
      | some p => exact hpure p.2
  | param i =>
      simp only [eval, value?]
      cases fr.args[i]? with
      | none => exact hnone _
      | some w => exact hpure w
  | imm n => exact hpure _
  | handle h => exact hnone _

/-- Reading an operand with a value answers it. -/
theorem run_eval {fr : Frame} {o : Operand} {v : Value} (h : fr.value? o = some v) (s : Machine) :
    (fr.eval o).run s = .ok v s :=
  run_eval_eq_ok.mpr ⟨h, rfl⟩

/-- Reading a word operand succeeds exactly with its word, and leaves the machine as it was. -/
theorem run_int_eq_ok {fr : Frame} {o : Operand} {s t : Machine} {n : Nat} :
    (fr.int o).run s = .ok n t ↔ fr.value? o = some (.int n) ∧ t = s := by
  simp only [Frame.int]
  constructor
  · intro h
    obtain ⟨x, u, hrun, h⟩ := Machine.run_bind_eq_ok.mp h
    obtain ⟨hx, rfl⟩ := run_eval_eq_ok.mp hrun
    cases x with
    | int k =>
        obtain ⟨rfl, rfl⟩ := Machine.run_pure_eq_ok.mp h
        exact ⟨hx, rfl⟩
    | ptr p => cases h
  · rintro ⟨hv, rfl⟩
    rw [Machine.run_bind_eq_ok]
    exact ⟨.int n, t, run_eval hv t, rfl⟩

/-- Reading a list of operands succeeds exactly with their values, and leaves the machine as it
was. -/
theorem run_mapM_eval_eq_ok {fr : Frame} {os : List Operand} {s t : Machine} {vs : List Value} :
    (os.mapM fr.eval).run s = .ok vs t ↔ os.mapM fr.value? = some vs ∧ t = s := by
  induction os generalizing vs s t with
  | nil =>
      simp only [List.mapM_nil]
      rw [Machine.run_pure_eq_ok]
      constructor
      · rintro ⟨rfl, rfl⟩
        exact ⟨rfl, rfl⟩
      · rintro ⟨h, rfl⟩
        cases h
        exact ⟨rfl, rfl⟩
  | cons o os ih =>
      simp only [List.mapM_cons]
      rw [Machine.run_bind_eq_ok]
      constructor
      · rintro ⟨v, u, hv, hrest⟩
        obtain ⟨hov, rfl⟩ := run_eval_eq_ok.mp hv
        rw [Machine.run_bind_eq_ok] at hrest
        obtain ⟨ws, u', hws, hpure⟩ := hrest
        obtain ⟨hosw, rfl⟩ := ih.mp hws
        obtain ⟨rfl, rfl⟩ := Machine.run_pure_eq_ok.mp hpure
        exact ⟨by simp [hov, hosw], rfl⟩
      · rintro ⟨hvs, rfl⟩
        cases hv : fr.value? o with
        | none => simp [hv] at hvs
        | some v =>
            cases hws : os.mapM fr.value? with
            | none => simp [hv, hws] at hvs
            | some ws =>
                simp only [hv, hws, Option.bind_eq_bind, Option.bind_some, Option.pure_def,
                  Option.some.injEq] at hvs
                refine ⟨v, t, run_eval hv t, ?_⟩
                rw [Machine.run_bind_eq_ok]
                exact ⟨ws, t, ih.mpr ⟨hws, rfl⟩, Machine.run_pure_eq_ok.mpr ⟨hvs, rfl⟩⟩

end Frame

end KernelLaunch
