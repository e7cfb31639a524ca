import KernelLaunch.Proofs.Interp.Exec
/-!
# What a run leaves alone

Only the host sets the module being run, the width of its pointers and the local id of the
invocation; no instruction changes them, and no instruction takes back an event once recorded.
`Keeps x` says that every successful run of `x` leaves the first as it found them and only adds
to the second. Each primitive of the interpreter does, binds and branches keep what their parts
keep, and `keeps_call` concludes by induction on the fuel, then on the instructions, that every
call does.
-/

namespace KernelLaunch

namespace Machine

/-- The part of a machine only the host sets is the same in both, and the events of the first
begin the events of the second. -/
structure Fixed (s t : Machine) : Prop where
  module : t.module = s.module
  ptrBytes : t.ptrBytes = s.ptrBytes
  localId : t.localId = s.localId
  events : s.events.toList <+: t.events.toList

theorem Fixed.refl (s : Machine) : Fixed s s := ⟨rfl, rfl, rfl, List.prefix_refl _⟩

theorem Fixed.trans {s u t : Machine} (h₁ : Fixed s u) (h₂ : Fixed u t) : Fixed s t :=
  ⟨h₂.module.trans h₁.module, h₂.ptrBytes.trans h₁.ptrBytes, h₂.localId.trans h₁.localId,
    h₁.events.trans h₂.events⟩

/-- A machine changed in neither its host part nor its events. -/
theorem Fixed.of_events_eq {s t : Machine} (hm : t.module = s.module) (hp : t.ptrBytes = s.ptrBytes)
    (hl : t.localId = s.localId) (he : t.events = s.events) : Fixed s t :=
  ⟨hm, hp, hl, he ▸ List.prefix_refl _⟩

/-- Every successful run of the computation keeps the part of the machine only the host sets. -/
def Keeps {α : Type} (x : Exec α) : Prop := ∀ s a t, x.run s = .ok a t → Fixed s t

namespace Keeps

variable {α β : Type}

theorem pure (a : α) : Keeps (pure a : Exec α) := by
  intro s b t h
  obtain ⟨-, rfl⟩ := run_pure_eq_ok.mp h
  exact Fixed.refl s

theorem bind {x : Exec α} {f : α → Exec β} (hx : Keeps x) (hf : ∀ a, Keeps (f a)) : Keeps (x >>= f) := by
  intro s b t h
  obtain ⟨a, u, h₁, h₂⟩ := run_bind_eq_ok.mp h
  exact (hx s a u h₁).trans (hf a u b t h₂)

theorem get : Keeps (get : Exec Machine) := by
  intro s a t h
  cases h
  exact Fixed.refl _

theorem stop (e : ExecError) : Keeps (Machine.stop e : Exec α) := by
  intro s a t h
  cases h

/-- A computation that starts by stopping keeps everything, as it never succeeds. -/
theorem stop_bind (e : ExecError) (f : α → Exec β) : Keeps (Machine.stop e >>= f) := by
  intro s a t h
  obtain ⟨_, _, h, -⟩ := run_bind_eq_ok.mp h
  cases h

theorem throw (e : Stop) : Keeps (throw e : Exec α) := by
  intro s a t h
  cases h

theorem faultOf (r : Except Fault α) : Keeps (Machine.faultOf r) := by
  intro s a t h
  obtain ⟨-, rfl⟩ := run_faultOf_eq_ok.mp h
  exact Fixed.refl _

theorem modify {f : Machine → Machine} (hf : ∀ m, Fixed m (f m)) : Keeps (modify f : Exec Unit) := by
  intro s a t h
  cases h
  exact hf s

theorem ite {c : Prop} [Decidable c] {x y : Exec α} (hx : Keeps x) (hy : Keeps y) :
    Keeps (if c then x else y) := by
  split
  · exact hx
  · exact hy

theorem mapM {γ : Type} {f : γ → Exec α} (hf : ∀ a, Keeps (f a)) : ∀ xs : List γ, Keeps (xs.mapM f)
  | [] => by simpa using Keeps.pure []
  | x :: xs => by
      simp only [List.mapM_cons]
      exact bind (hf x) fun a => bind (mapM hf xs) fun _ => Keeps.pure _

end Keeps

theorem keeps_tick : Keeps tick := by
  intro s a t h
  obtain ⟨-, rfl⟩ := run_tick_eq_ok.mp h
  exact .of_events_eq rfl rfl rfl rfl

theorem keeps_record (e : Event) : Keeps (record e) :=
  Keeps.modify fun _ => ⟨rfl, rfl, rfl, by simp⟩

theorem keeps_allocRegion (r : Region) : Keeps (allocRegion r) := by
  intro s a t h
  rw [run_allocRegion] at h
  cases h
  exact .of_events_eq rfl rfl rfl rfl

theorem keeps_bounds (p : Pointer) (len : Nat) : Keeps (bounds p len) := by
  unfold bounds
  refine Keeps.bind Keeps.get fun m => ?_
  split
  · exact Keeps.ite (Keeps.pure _) (Keeps.stop _)
  · exact Keeps.stop _

theorem keeps_readBytes (p : Pointer) (len : Nat) : Keeps (readBytes p len) :=
  Keeps.bind (keeps_bounds p len) fun _ => Keeps.pure _

theorem keeps_writeBytes (p : Pointer) (data : ByteArray) : Keeps (writeBytes p data) :=
  Keeps.bind (keeps_bounds p data.size) fun _ => Keeps.modify fun _ => .of_events_eq rfl rfl rfl rfl

theorem keeps_readWord (p : Pointer) (width : Nat) : Keeps (readWord p width) :=
  Keeps.bind (keeps_readBytes p width) fun _ => Keeps.faultOf _

theorem keeps_rawOf (v : Value) : Keeps (rawOf v) := by
  unfold rawOf
  split
  · exact Keeps.pure _
  · exact Keeps.bind Keeps.get fun _ => Keeps.faultOf _

theorem keeps_loadValue (fname : String) (ty : Ty) (p : Pointer) : Keeps (loadValue fname ty p) := by
  unfold loadValue
  dsimp only
  split
  · exact Keeps.stop_bind _ _
  · exact Keeps.bind Keeps.get fun m => Keeps.bind (keeps_readWord _ _) fun _ => by
      split <;> exact Keeps.pure _

theorem keeps_storeValue (fname : String) (ty : Ty) (p : Pointer) (v : Value) :
    Keeps (storeValue fname ty p v) := by
  unfold storeValue
  dsimp only
  split
  · exact Keeps.stop_bind _ _
  · exact Keeps.bind (keeps_rawOf v) fun _ => Keeps.bind Keeps.get fun _ =>
      Keeps.bind (Keeps.faultOf _) fun _ => keeps_writeBytes _ _

theorem keeps_appendOutput (buf pos : Pointer) (capacity : Nat) (values : List Value) :
    Keeps (appendOutput buf pos capacity values) := by
  unfold appendOutput
  refine Keeps.bind (keeps_readWord _ _) fun _ => ?_
  refine Keeps.ite (Keeps.pure _) ?_
  exact Keeps.bind (Keeps.mapM keeps_rawOf _) fun _ =>
    Keeps.bind (keeps_writeBytes _ _) fun _ => keeps_writeBytes _ _

theorem keeps_external (name : String) (args : List Value) : Keeps (external name args) := by
  unfold external
  exact Keeps.ite (Keeps.bind Keeps.get fun _ => Keeps.pure _) (Keeps.pure _)

theorem keeps_binary (fname : String) (op : BinOp) (l r : Value) : Keeps (binary fname op l r) := by
  unfold binary
  split
  · split <;> first | exact Keeps.pure _ | exact Keeps.ite (Keeps.stop _) (Keeps.pure _)
  · split <;> first | exact Keeps.pure _ | exact Keeps.stop _
  · exact Keeps.stop _

theorem keeps_eval (fr : Frame) (o : Operand) : Keeps (fr.eval o) := by
  intro s v t h
  obtain ⟨-, rfl⟩ := Frame.run_eval_eq_ok.mp h
  exact Fixed.refl _

theorem keeps_int (fr : Frame) (o : Operand) : Keeps (fr.int o) := by
  unfold Frame.int
  refine Keeps.bind (keeps_eval fr o) fun v => ?_
  split
  · exact Keeps.pure _
  · exact Keeps.stop _

theorem keeps_pointer (fr : Frame) (o : Operand) : Keeps (fr.pointer o) := by
  unfold Frame.pointer
  refine Keeps.bind (keeps_eval fr o) fun v => ?_
  split
  · exact Keeps.pure _
  · exact Keeps.stop _

theorem keeps_iterate {step : Frame → Nat → Exec (Flow × Frame)} (hstep : ∀ fr i, Keeps (step fr i)) :
    ∀ (left : Nat) (fr : Frame) (i : Nat), Keeps (iterate step fr i left)
  | 0, _, _ => Keeps.pure _
  | left + 1, fr, i => by
      simp only [iterate]
      exact Keeps.bind (hstep fr i) fun _ => Keeps.ite (Keeps.pure _) (keeps_iterate hstep left _ _)

section Calls

variable {callFn : String → List Value → Exec (Option Value)}

mutual

/-- A block keeps what only the host sets, when the calls it makes do. -/
theorem keeps_block (hcall : ∀ c vs, Keeps (callFn c vs)) (fr : Frame) :
    ∀ insts : List Inst, Keeps (block callFn fr insts)
  | [] => Keeps.pure _
  | i :: is => by
      simp only [block]
      exact Keeps.bind keeps_tick fun _ => Keeps.bind (keeps_inst hcall fr i) fun _ =>
        Keeps.ite (Keeps.pure _) (keeps_block hcall _ is)

/-- An instruction keeps what only the host sets, when the calls it makes do. -/
theorem keeps_inst (hcall : ∀ c vs, Keeps (callFn c vs)) (fr : Frame) : ∀ i : Inst, Keeps (inst callFn fr i)
  | .bin d op l r => Keeps.bind (keeps_eval fr l) fun _ => Keeps.bind (keeps_eval fr r) fun _ =>
      Keeps.bind (keeps_binary _ _ _ _) fun _ => Keeps.pure _
  | .load d ty p off _ => Keeps.bind (keeps_pointer fr p) fun _ =>
      Keeps.bind (keeps_loadValue _ _ _) fun _ => Keeps.pure _
  | .store ty p off v => Keeps.bind (keeps_pointer fr p) fun _ => Keeps.bind (keeps_eval fr v) fun _ =>
      Keeps.bind (keeps_storeValue _ _ _ _) fun _ => Keeps.pure _
  | .alloca d sp size _ => Keeps.bind (keeps_int fr size) fun _ =>
      Keeps.bind (keeps_allocRegion _) fun _ => Keeps.pure _
  | .memcpy dst src off len => Keeps.bind (keeps_pointer fr dst) fun _ =>
      Keeps.bind (keeps_pointer fr src) fun _ => Keeps.bind (keeps_readBytes _ _) fun _ =>
        Keeps.bind (keeps_writeBytes _ _) fun _ => Keeps.pure _
  | .call d c args => by
      simp only [inst]
      refine Keeps.bind (Keeps.mapM (keeps_eval fr) args) fun vs => Keeps.bind (hcall c vs) fun _ => ?_
      split <;> exact Keeps.pure _
  | .barrier => Keeps.bind (keeps_record _) fun _ => Keeps.pure _
  | .printf fmt args buf => by
      simp only [inst]
      refine Keeps.bind (Keeps.mapM (keeps_eval fr) args) fun vs => ?_
      split
      · exact Keeps.bind (keeps_pointer fr _) fun _ => Keeps.bind (keeps_pointer fr _) fun _ =>
          Keeps.bind (keeps_int fr _) fun _ => Keeps.bind (keeps_appendOutput _ _ _ _) fun _ =>
            Keeps.bind (keeps_record _) fun _ => Keeps.pure _
      · exact Keeps.bind (keeps_record _) fun _ => Keeps.pure _
  | .placeholder d _ => Keeps.stop _
  | .loop v bound body => by
      simp only [inst]
      refine Keeps.bind (keeps_int fr bound) fun n => ?_
      exact Keeps.ite (Keeps.pure _)
        (keeps_iterate (fun fr _ => keeps_block hcall _ body) n fr 0)
  | .ret => Keeps.pure _

end

end Calls

/-- A call that ran its body and succeeded ran the body successfully, from the machine with the
depth raised, and then lowered the depth again. -/
theorem run_attempt_depth_eq_ok {fuel : Nat} {f : Function} {args : List Value} {body : List Inst}
    {s t : Machine} {r : Option Value}
    (h : (do
      modify fun (m : Machine) => { m with depth := m.depth + 1 }
      let r ← attempt (block (call fuel) { func := f, args } body)
      modify fun (m : Machine) => { m with depth := m.depth - 1 }
      match r with
      | .ok _ => pure none
      | .error e => throw e : Exec (Option Value)).run s = .ok r t) :
    ∃ res u, (block (call fuel) { func := f, args } body).run { s with depth := s.depth + 1 } =
      .ok res u ∧ t = { u with depth := u.depth - 1 } ∧ r = none := by
  obtain ⟨_, s₁, hup, h⟩ := run_bind_eq_ok.mp h
  cases hup
  obtain ⟨res, u, hatt, h⟩ := run_bind_eq_ok.mp h
  rw [run_attempt] at hatt
  obtain ⟨_, u₁, hdown, h⟩ := run_bind_eq_ok.mp h
  cases hdown
  cases hb : (block (call fuel) { func := f, args } body).run { s with depth := s.depth + 1 } with
  | ok a u' =>
      rw [hb] at hatt
      cases hatt
      obtain ⟨rfl, rfl⟩ := run_pure_eq_ok.mp h
      exact ⟨a, _, rfl, rfl, rfl⟩
  | error e u' =>
      rw [hb] at hatt
      cases hatt
      exact absurd h run_throw_ne_ok

/-- Every successful call keeps what only the host sets. -/
theorem keeps_call : ∀ (fuel : Nat) (name : String) (args : List Value), Keeps (call fuel name args)
  | fuel, name, args => by
      simp only [call]
      refine Keeps.bind (keeps_record _) fun _ => Keeps.bind Keeps.get fun m => ?_
      split
      · exact Keeps.stop _
      · split
        · exact Keeps.stop_bind _ _
        split
        · exact Keeps.bind (keeps_external _ _) fun _ => Keeps.pure _
        · split
          · exact Keeps.stop_bind _ _
          split
          · exact Keeps.stop _
          · rename_i fuel'
            intro s a t h
            obtain ⟨res, u, hb, rfl, -⟩ := run_attempt_depth_eq_ok h
            have hup : Fixed s { s with depth := s.depth + 1 } := .of_events_eq rfl rfl rfl rfl
            exact (hup.trans (keeps_block (keeps_call fuel') _ _ _ res u hb)).trans
              (.of_events_eq rfl rfl rfl rfl)

end Machine

end KernelLaunch
