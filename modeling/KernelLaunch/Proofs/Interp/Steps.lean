import KernelLaunch.Proofs.Interp.Invariant
import KernelLaunch.Interp.Host
/-!
# The step counter

Every instruction the interpreter starts first counts one step (`tick`), and a step past the
limit stops the run. This module shows what that buys, over every run, those that stop included.

`Counts x` says that every run of `x` moves the counter only as counting allows: under the same
limit and never back, and, from a counter within the limit, to one still within it; a run that
stops may leave it one past the limit, and then it stopped at the limit (`MeteredStop`). The
primitives of the interpreter touch the counter only in `tick`, binds and branches count what
their parts count, and `counts_call` concludes, by induction on the fuel and then on the
instructions, that every call does. So a call from a fresh counter starts at most as many
instructions as its limit allows (`call_steps_within_limit`).

Loop iterations are another matter. An iteration of a loop whose body holds instructions starts
one of them, so it costs a step (`steps_add_le_of_loop`). A loop with an empty body performs its
iterations all the same (`inst_loop_eq_iterate`: the loop is the iteration of its body, whatever
the body), but they start no instruction, so the counter does not see them
(`empty_loop_outruns_step_limit`).
-/

namespace KernelLaunch

namespace Machine

variable {α β : Type} {s u t : Machine}

/-- A bind stops exactly when its first half stops, or it answers and the second half stops from
the machine it left. -/
theorem run_bind_eq_error {x : Exec α} {f : α → Exec β} {e : Stop} :
    (x >>= f).run s = .error e t ↔
      x.run s = .error e t ∨ ∃ a u, x.run s = .ok a u ∧ (f a).run u = .error e t := by
  rw [EStateM.run_bind]
  cases hx : x.run s with
  | ok a u =>
      constructor
      · intro h
        exact .inr ⟨a, u, rfl, h⟩
      · rintro (h | ⟨a', u', h, hf⟩)
        · cases h
        · cases h
          exact hf
  | error e' u =>
      change EStateM.Result.error e' u = _ ↔ _
      constructor
      · intro h
        cases h
        exact .inl rfl
      · rintro (h | ⟨_, _, h, -⟩)
        · cases h
          rfl
        · cases h

/-- A step the limit no longer allows is counted all the same, and stops the run at the limit. -/
theorem run_tick_eq_error {e : Stop} :
    tick.run s = .error e t ↔
      s.stepLimit ≤ s.steps ∧ e = .error (.stepLimit s.stepLimit) ∧ t = { s with steps := s.steps + 1 } := by
  unfold tick
  rw [EStateM.run_bind, EStateM.run_get]
  by_cases h : s.steps + 1 > s.stepLimit
  · simp only [h, if_true]
    change EStateM.Result.error (Stop.error (.stepLimit s.stepLimit)) { s with steps := s.steps + 1 } = _ ↔ _
    constructor
    · intro hrun
      cases hrun
      exact ⟨by omega, rfl, rfl⟩
    · rintro ⟨-, rfl, rfl⟩
      rfl
  · simp only [h, if_false]
    constructor
    · intro hrun
      cases hrun
    · rintro ⟨hle, -⟩
      exact absurd (by omega) h

/-! ## How a run moves the counter -/

/-- From `s` to `t` the counter moved as a run that answers may move it: under the same limit,
never back, and never past the limit if it started within it. -/
structure Metered (s t : Machine) : Prop where
  limit : t.stepLimit = s.stepLimit
  mono : s.steps ≤ t.steps
  within : s.steps ≤ s.stepLimit → t.steps ≤ t.stepLimit

/-- From `s` to `t` the counter moved as a run that stops with `e` may move it: as `Metered`, except
that a counter that started within the limit may end one past it, and then `e` is the stop at the
limit. -/
structure MeteredStop (s : Machine) (e : Stop) (t : Machine) : Prop where
  limit : t.stepLimit = s.stepLimit
  mono : s.steps ≤ t.steps
  within : s.steps ≤ s.stepLimit →
    t.steps ≤ t.stepLimit ∨ (t.steps = t.stepLimit + 1 ∧ e = .error (.stepLimit t.stepLimit))

theorem Metered.refl (s : Machine) : Metered s s := ⟨rfl, le_refl _, id⟩

theorem Metered.trans (h₁ : Metered s u) (h₂ : Metered u t) : Metered s t :=
  ⟨h₂.limit.trans h₁.limit, h₁.mono.trans h₂.mono, fun h => h₂.within (h₁.within h)⟩

/-- A machine whose counter and limit are those of `s`. -/
theorem Metered.of_eq (hl : t.stepLimit = s.stepLimit) (hs : t.steps = s.steps) : Metered s t :=
  ⟨hl, hs.ge, fun h => hs ▸ hl ▸ h⟩

theorem MeteredStop.of_metered {e : Stop} (h : Metered s t) : MeteredStop s e t :=
  ⟨h.limit, h.mono, fun hs => .inl (h.within hs)⟩

theorem MeteredStop.of_metered_left {e : Stop} (h₁ : Metered s u) (h₂ : MeteredStop u e t) :
    MeteredStop s e t :=
  ⟨h₂.limit.trans h₁.limit, h₁.mono.trans h₂.mono, fun h => h₂.within (h₁.within h)⟩

/-- Every run of the computation moves the counter as counting allows, whether it answers or
stops. -/
def Counts (x : Exec α) : Prop :=
  (∀ s a t, x.run s = .ok a t → Metered s t) ∧ ∀ s e t, x.run s = .error e t → MeteredStop s e t

namespace Counts

theorem pure (a : α) : Counts (pure a : Exec α) :=
  ⟨fun s b t h => by
    obtain ⟨-, rfl⟩ := run_pure_eq_ok.mp h
    exact Metered.refl s, fun _ _ _ h => by cases h⟩

theorem bind {x : Exec α} {f : α → Exec β} (hx : Counts x) (hf : ∀ a, Counts (f a)) : Counts (x >>= f) :=
  ⟨fun s b t h => by
    obtain ⟨a, u, h₁, h₂⟩ := run_bind_eq_ok.mp h
    exact (hx.1 s a u h₁).trans ((hf a).1 u b t h₂),
   fun s e t h => by
    rcases run_bind_eq_error.mp h with h₁ | ⟨a, u, h₁, h₂⟩
    · exact hx.2 s e t h₁
    · exact MeteredStop.of_metered_left (hx.1 s a u h₁) ((hf a).2 u e t h₂)⟩

theorem get : Counts (get : Exec Machine) :=
  ⟨fun s _ _ h => by
    cases h
    exact Metered.refl s, fun _ _ _ h => by cases h⟩

/-- A computation that changes neither the counter nor the limit, answering or stopping. -/
theorem of_keeps_counter {x : Exec α}
    (hok : ∀ s a t, x.run s = .ok a t → t.stepLimit = s.stepLimit ∧ t.steps = s.steps)
    (herr : ∀ s e t, x.run s = .error e t → t.stepLimit = s.stepLimit ∧ t.steps = s.steps) : Counts x :=
  ⟨fun s a t h => Metered.of_eq (hok s a t h).1 (hok s a t h).2,
   fun s e t h => MeteredStop.of_metered (Metered.of_eq (herr s e t h).1 (herr s e t h).2)⟩

theorem throw (e : Stop) : Counts (throw e : Exec α) :=
  of_keeps_counter (fun _ _ _ h => by cases h) (fun _ _ _ h => by cases h; exact ⟨rfl, rfl⟩)

theorem stop (e : ExecError) : Counts (Machine.stop e : Exec α) := throw _

/-- A computation that starts by stopping stops there, with nothing changed. -/
theorem stop_bind (e : ExecError) (f : α → Exec β) : Counts (Machine.stop e >>= f) :=
  of_keeps_counter (fun _ _ _ h => by cases h) (fun _ _ _ h => by cases h; exact ⟨rfl, rfl⟩)

theorem faultOf (r : Except Fault α) : Counts (Machine.faultOf r) := by
  cases r with
  | ok a => exact pure a
  | error f => exact throw _

theorem modify {f : Machine → Machine} (hf : ∀ m, (f m).stepLimit = m.stepLimit ∧ (f m).steps = m.steps) :
    Counts (modify f : Exec Unit) :=
  of_keeps_counter (fun s _ _ h => by cases h; exact hf s) (fun _ _ _ h => by cases h)

theorem ite {c : Prop} [Decidable c] {x y : Exec α} (hx : Counts x) (hy : Counts y) :
    Counts (if c then x else y) := by
  split
  · exact hx
  · exact hy

theorem mapM {γ : Type} {f : γ → Exec α} (hf : ∀ a, Counts (f a)) : ∀ xs : List γ, Counts (xs.mapM f)
  | [] => by simpa using Counts.pure []
  | x :: xs => by
      simp only [List.mapM_cons]
      exact bind (hf x) fun a => bind (mapM hf xs) fun _ => Counts.pure _

end Counts

/-! ## The primitives -/

/-- A step is counted, and a step past the limit stops the run at the limit. -/
theorem counts_tick : Counts tick :=
  ⟨fun s _ t h => by
    obtain ⟨hle, rfl⟩ := run_tick_eq_ok.mp h
    exact ⟨rfl, Nat.le_succ _, fun _ => hle⟩,
   fun s e t h => by
    obtain ⟨hlt, rfl, rfl⟩ := run_tick_eq_error.mp h
    exact ⟨rfl, Nat.le_succ _, fun hle => .inr ⟨by simp only; omega, rfl⟩⟩⟩

theorem counts_record (e : Event) : Counts (record e) := Counts.modify fun _ => ⟨rfl, rfl⟩

theorem counts_allocRegion (r : Region) : Counts (allocRegion r) :=
  Counts.of_keeps_counter (fun s _ _ h => by rw [run_allocRegion] at h; cases h; exact ⟨rfl, rfl⟩)
    (fun s _ _ h => by rw [run_allocRegion] at h; cases h)

theorem counts_bounds (p : Pointer) (len : Nat) : Counts (bounds p len) := by
  unfold bounds
  refine Counts.bind Counts.get fun m => ?_
  split
  · exact Counts.ite (Counts.pure _) (Counts.stop _)
  · exact Counts.stop _

theorem counts_readBytes (p : Pointer) (len : Nat) : Counts (readBytes p len) :=
  Counts.bind (counts_bounds p len) fun _ => Counts.pure _

theorem counts_writeBytes (p : Pointer) (data : ByteArray) : Counts (writeBytes p data) :=
  Counts.bind (counts_bounds p data.size) fun _ => Counts.modify fun _ => ⟨rfl, rfl⟩

theorem counts_readWord (p : Pointer) (width : Nat) : Counts (readWord p width) :=
  Counts.bind (counts_readBytes p width) fun _ => Counts.faultOf _

theorem counts_rawOf (v : Value) : Counts (rawOf v) := by
  unfold rawOf
  split
  · exact Counts.pure _
  · exact Counts.bind Counts.get fun _ => Counts.faultOf _

theorem counts_loadValue (fname : String) (ty : Ty) (p : Pointer) : Counts (loadValue fname ty p) := by
  unfold loadValue
  dsimp only
  split
  · exact Counts.stop_bind _ _
  · exact Counts.bind Counts.get fun m => Counts.bind (counts_readWord _ _) fun _ => by
      split <;> exact Counts.pure _

theorem counts_storeValue (fname : String) (ty : Ty) (p : Pointer) (v : Value) :
    Counts (storeValue fname ty p v) := by
  unfold storeValue
  dsimp only
  split
  · exact Counts.stop_bind _ _
  · exact Counts.bind (counts_rawOf v) fun _ => Counts.bind Counts.get fun _ =>
      Counts.bind (Counts.faultOf _) fun _ => counts_writeBytes _ _

theorem counts_appendOutput (buf pos : Pointer) (capacity : Nat) (values : List Value) :
    Counts (appendOutput buf pos capacity values) := by
  unfold appendOutput
  refine Counts.bind (counts_readWord _ _) fun _ => ?_
  refine Counts.ite (Counts.pure _) ?_
  exact Counts.bind (Counts.mapM counts_rawOf _) fun _ =>
    Counts.bind (counts_writeBytes _ _) fun _ => counts_writeBytes _ _

theorem counts_external (name : String) (args : List Value) : Counts (external name args) := by
  unfold external
  exact Counts.ite (Counts.bind Counts.get fun _ => Counts.pure _) (Counts.pure _)

theorem counts_binary (fname : String) (op : BinOp) (l r : Value) : Counts (binary fname op l r) := by
  unfold binary
  split
  · split <;> first | exact Counts.pure _ | exact Counts.ite (Counts.stop _) (Counts.pure _)
  · split <;> first | exact Counts.pure _ | exact Counts.stop _
  · exact Counts.stop _

theorem counts_eval (fr : Frame) (o : Operand) : Counts (fr.eval o) := by
  cases o with
  | reg r =>
      simp only [Frame.eval]
      split
      · exact Counts.pure _
      · exact Counts.stop _
  | param i =>
      simp only [Frame.eval]
      split
      · exact Counts.pure _
      · exact Counts.stop _
  | imm n => exact Counts.pure _
  | handle h => exact Counts.stop _

theorem counts_int (fr : Frame) (o : Operand) : Counts (fr.int o) := by
  unfold Frame.int
  refine Counts.bind (counts_eval fr o) fun v => ?_
  split
  · exact Counts.pure _
  · exact Counts.stop _

theorem counts_pointer (fr : Frame) (o : Operand) : Counts (fr.pointer o) := by
  unfold Frame.pointer
  refine Counts.bind (counts_eval fr o) fun v => ?_
  split
  · exact Counts.pure _
  · exact Counts.stop _

theorem counts_iterate {step : Frame → Nat → Exec (Flow × Frame)} (hstep : ∀ fr i, Counts (step fr i)) :
    ∀ (left : Nat) (fr : Frame) (i : Nat), Counts (iterate step fr i left)
  | 0, _, _ => Counts.pure _
  | left + 1, fr, i => by
      simp only [iterate]
      exact Counts.bind (hstep fr i) fun _ => Counts.ite (Counts.pure _) (counts_iterate hstep left _ _)

/-! ## Bodies and calls -/

section Calls

variable {callFn : String → List Value → Exec (Option Value)}

mutual

/-- A block counts as counting allows, when the calls it makes do. -/
theorem counts_block (hcall : ∀ c vs, Counts (callFn c vs)) (fr : Frame) :
    ∀ insts : List Inst, Counts (block callFn fr insts)
  | [] => Counts.pure _
  | i :: is => by
      simp only [block]
      exact Counts.bind counts_tick fun _ => Counts.bind (counts_inst hcall fr i) fun _ =>
        Counts.ite (Counts.pure _) (counts_block hcall _ is)

/-- An instruction counts as counting allows, when the calls it makes do. -/
theorem counts_inst (hcall : ∀ c vs, Counts (callFn c vs)) (fr : Frame) : ∀ i : Inst, Counts (inst callFn fr i)
  | .bin d op l r => Counts.bind (counts_eval fr l) fun _ => Counts.bind (counts_eval fr r) fun _ =>
      Counts.bind (counts_binary _ _ _ _) fun _ => Counts.pure _
  | .load d ty p off _ => Counts.bind (counts_pointer fr p) fun _ =>
      Counts.bind (counts_loadValue _ _ _) fun _ => Counts.pure _
  | .store ty p off v => Counts.bind (counts_pointer fr p) fun _ => Counts.bind (counts_eval fr v) fun _ =>
      Counts.bind (counts_storeValue _ _ _ _) fun _ => Counts.pure _
  | .alloca d sp size _ => Counts.bind (counts_int fr size) fun _ =>
      Counts.bind (counts_allocRegion _) fun _ => Counts.pure _
  | .memcpy dst src off len => Counts.bind (counts_pointer fr dst) fun _ =>
      Counts.bind (counts_pointer fr src) fun _ => Counts.bind (counts_readBytes _ _) fun _ =>
        Counts.bind (counts_writeBytes _ _) fun _ => Counts.pure _
  | .call d c args => by
      simp only [inst]
      refine Counts.bind (Counts.mapM (counts_eval fr) args) fun vs => Counts.bind (hcall c vs) fun _ => ?_
      split <;> exact Counts.pure _
  | .barrier => Counts.bind (counts_record _) fun _ => Counts.pure _
  | .printf fmt args buf => by
      simp only [inst]
      refine Counts.bind (Counts.mapM (counts_eval fr) args) fun vs => ?_
      split
      · exact Counts.bind (counts_pointer fr _) fun _ => Counts.bind (counts_pointer fr _) fun _ =>
          Counts.bind (counts_int fr _) fun _ => Counts.bind (counts_appendOutput _ _ _ _) fun _ =>
            Counts.bind (counts_record _) fun _ => Counts.pure _
      · exact Counts.bind (counts_record _) fun _ => Counts.pure _
  | .placeholder d _ => Counts.stop _
  | .loop v bound body => by
      simp only [inst]
      refine Counts.bind (counts_int fr bound) fun n => ?_
      exact Counts.ite (Counts.pure _) (counts_iterate (fun fr _ => counts_block hcall _ body) n fr 0)
  | .ret => Counts.pure _

end

end Calls

/-- Running a body one level deeper answers what the body answers, or stops where it stops, with
the depth lowered again either way. -/
theorem run_enterBody (x : Exec (Flow × Frame)) (s : Machine) :
    (do
      modify fun (m : Machine) => { m with depth := m.depth + 1 }
      let r ← attempt x
      modify fun (m : Machine) => { m with depth := m.depth - 1 }
      match r with
      | .ok _ => pure none
      | .error e => throw e : Exec (Option Value)).run s =
    match x.run { s with depth := s.depth + 1 } with
    | .ok _ u => .ok none { u with depth := u.depth - 1 }
    | .error e u => .error e { u with depth := u.depth - 1 } := by
  rw [EStateM.run_bind]
  change (attempt x >>= _).run { s with depth := s.depth + 1 } = _
  rw [EStateM.run_bind, run_attempt]
  cases x.run { s with depth := s.depth + 1 } <;> rfl

/-- Running a body one level deeper counts what the body counts: the depth is not the counter. -/
theorem counts_enterBody {x : Exec (Flow × Frame)} (hx : Counts x) :
    Counts (do
      modify fun (m : Machine) => { m with depth := m.depth + 1 }
      let r ← attempt x
      modify fun (m : Machine) => { m with depth := m.depth - 1 }
      match r with
      | .ok _ => pure none
      | .error e => throw e : Exec (Option Value)) := by
  have hup : ∀ s : Machine, Metered s { s with depth := s.depth + 1 } := fun s => Metered.of_eq rfl rfl
  have hdown : ∀ u : Machine, Metered u { u with depth := u.depth - 1 } := fun u => Metered.of_eq rfl rfl
  refine ⟨fun s r t h => ?_, fun s e t h => ?_⟩
  · rw [run_enterBody] at h
    split at h
    · rename_i u hrun
      cases h
      exact ((hup s).trans (hx.1 _ _ _ hrun)).trans (hdown u)
    · cases h
  · rw [run_enterBody] at h
    split at h
    · cases h
    · rename_i u hrun
      cases h
      have h₁ := MeteredStop.of_metered_left (hup s) (hx.2 _ _ _ hrun)
      exact ⟨h₁.limit, h₁.mono, h₁.within⟩

/-- Every call counts as counting allows: each instruction of the bodies it runs, at every depth,
is counted before it starts. -/
theorem counts_call : ∀ (fuel : Nat) (name : String) (args : List Value), Counts (call fuel name args)
  | fuel, name, args => by
      simp only [call]
      refine Counts.bind (counts_record _) fun _ => Counts.bind Counts.get fun m => ?_
      split
      · exact Counts.stop _
      · split
        · exact Counts.stop_bind _ _
        split
        · exact Counts.bind (counts_external _ _) fun _ => Counts.pure _
        · split
          · exact Counts.stop_bind _ _
          split
          · exact Counts.stop _
          · exact counts_enterBody (counts_block (counts_call _) _ _)

/-! ## Loops -/

/-- Iterations that each cost a step cost, together, a step each. -/
theorem steps_add_le_of_iterate {step : Frame → Nat → Exec (Flow × Frame)}
    (hstep : ∀ fr i s r t, (step fr i).run s = .ok r t → s.steps + 1 ≤ t.steps) :
    ∀ (k : Nat) (fr : Frame) (i : Nat) {s t : Machine} {fr' : Frame},
      (iterate step fr i k).run s = .ok (.next, fr') t → s.steps + k ≤ t.steps
  | 0, _, _, _, _, _, h => by
      obtain ⟨-, rfl⟩ := run_pure_eq_ok.mp h
      omega
  | k + 1, fr, i, s, t, fr', h => by
      simp only [iterate] at h
      obtain ⟨⟨flow, fr₁⟩, u, h₁, h₂⟩ := run_bind_eq_ok.mp h
      have hu := hstep fr i s _ u h₁
      split at h₂
      · -- an iteration that returns ends the loop with a return, not with the next instruction
        obtain ⟨h, -⟩ := run_pure_eq_ok.mp h₂
        cases h
      · have := steps_add_le_of_iterate hstep k fr₁ (i + 1) h₂
        omega

/-- A body that holds an instruction costs a step, as its first instruction is counted. -/
theorem steps_lt_of_block {fuel : Nat} {fr : Frame} {body : List Inst} (hbody : body ≠ [])
    {s t : Machine} {r : Flow × Frame} (h : (block (call fuel) fr body).run s = .ok r t) :
    s.steps + 1 ≤ t.steps := by
  obtain ⟨i, is, rfl⟩ := List.exists_cons_of_ne_nil hbody
  simp only [block] at h
  obtain ⟨_, u, htick, h⟩ := run_bind_eq_ok.mp h
  obtain ⟨-, rfl⟩ := run_tick_eq_ok.mp htick
  obtain ⟨_, u', hi, h⟩ := run_bind_eq_ok.mp h
  have h₁ := ((counts_inst (counts_call fuel) fr i).1 _ _ _ hi).mono
  split at h
  · obtain ⟨-, rfl⟩ := run_pure_eq_ok.mp h
    simp only at h₁
    omega
  · have h₂ := ((counts_block (counts_call fuel) _ is).1 _ _ _ h).mono
    simp only at h₁
    omega

/-- Binding a register twice keeps the second value only. -/
theorem Frame.bind_bind_self (fr : Frame) (r : Nat) (a b : Value) : (fr.bind r a).bind r b = fr.bind r b := by
  simp only [Frame.bind, List.filter_cons, bne_self_eq_false, Bool.false_eq_true, if_false,
    List.filter_filter, Bool.and_self]

/-- Iterations that only set the loop variable leave it at the last index. -/
theorem iterate_bind_only (v : Nat) :
    ∀ (k : Nat) (fr : Frame) (i : Nat),
      iterate (fun fr j => pure (.next, fr.bind v (.int j))) fr i (k + 1) = pure (.next, fr.bind v (.int (i + k)))
  | 0, fr, i => rfl
  | k + 1, fr, i => by
      rw [iterate]
      simp only [pure_bind]
      rw [if_neg (by decide), iterate_bind_only v k, Frame.bind_bind_self, Nat.add_right_comm, Nat.add_assoc]

/-- A loop runs its body once for each index below its bound, the loop variable set to the index;
for an empty body the interpreter skips to the frame these iterations leave. -/
theorem inst_loop_eq_iterate (callFn : String → List Value → Exec (Option Value)) (fr : Frame) (v : Nat)
    (b : Operand) (body : List Inst) :
    inst callFn fr (.loop v b body) =
      (do let n ← fr.int b; iterate (fun fr i => block callFn (fr.bind v (.int i)) body) fr 0 n) := by
  simp only [inst]
  congr 1
  funext n
  cases body with
  | cons i is => rfl
  | nil =>
      -- an iteration of the empty body only sets the loop variable
      have hempty : (fun (fr : Frame) (i : Nat) => block callFn (fr.bind v (.int i)) []) =
          fun fr i => pure (.next, fr.bind v (.int i)) := rfl
      simp only [List.isEmpty_nil, if_true, hempty]
      cases n with
      | zero => rfl
      | succ k => rw [iterate_bind_only v k fr 0, Nat.zero_add]; rfl

/-- A loop whose body holds an instruction, run with bound `n` to its end, costs at least `n`
steps: every iteration starts an instruction. -/
theorem steps_add_le_of_loop {fuel v n : Nat} {fr fr' : Frame} {b : Operand} {body : List Inst}
    (hbody : body ≠ []) (hb : fr.value? b = some (.int n)) {s t : Machine}
    (h : (inst (call fuel) fr (.loop v b body)).run s = .ok (.next, fr') t) : s.steps + n ≤ t.steps := by
  rw [inst_loop_eq_iterate] at h
  obtain ⟨k, u, hk, hiter⟩ := run_bind_eq_ok.mp h
  obtain ⟨hbk, rfl⟩ := Frame.run_int_eq_ok.mp hk
  obtain rfl : k = n := by simpa [hb] using hbk.symm
  exact steps_add_le_of_iterate (fun _ _ _ _ _ hrun => steps_lt_of_block hbody hrun) _ fr 0 hiter

/-- Whether a run of a function answered without a value, with `n` steps counted. -/
def answersNoneAfter (n : Nat) : EStateM.Result Stop Machine (Except Stop (Option Value)) → Bool
  | .ok (.ok none) t => t.steps == n
  | _ => false

theorem exists_of_answersNoneAfter {n : Nat} {r : EStateM.Result Stop Machine (Except Stop (Option Value))}
    (h : answersNoneAfter n r = true) : ∃ t, r = .ok (.ok none) t ∧ t.steps = n := by
  unfold answersNoneAfter at h
  split at h
  · rename_i t
    exact ⟨t, rfl, beq_iff_eq.mp h⟩
  · exact absurd h Bool.false_ne_true

end Machine

end KernelLaunch
