import KernelLaunch.Proofs.Launch.Builder
import KernelLaunch.Proofs.Context.Record

/-!
# Registers to spare

A builder numbers the registers it hands out in 32-bit words and keeps a fault once it hands out
one past the largest (`Builder.fresh`). `Builder.Room k b` says that `b` has met no fault and can
still hand out `k` registers. Every operation of the builder spends at most one of them, so each
building step of a launcher spends no more registers than it loads, allocates and opens loops.

A fold that spends a bounded number of registers per element is handled once, for the pure and
the faulting fold (`foldl_budget`, `foldlM_budget`). On a device whose limits each have a successor
in a 64-bit word (`DeviceConfig.LeavesRoom`) the context loads never fault either, and a launcher
is generated whenever the builder can spend two registers for each slot it unpacks and nine more
(`LauncherGen.generate_ok`).
-/

namespace KernelLaunch

/-! ## Spending a budget along a fold -/

/-- A fold whose every step, given `c` more of a budget, spends at most `c` of it, spends at most
`c` for each element. -/
theorem foldl_budget {σ α : Type} {step : σ → α → σ} {I : Nat → σ → Prop} {c : Nat}
    (hstep : ∀ s x k, I (k + c) s → I k (step s x)) :
    ∀ (xs : List α) (s : σ) (k : Nat), I (k + c * xs.length) s → I k (xs.foldl step s)
  | [], s, k, h => by simpa using h
  | x :: xs, s, k, h => by
      rw [List.foldl_cons]
      refine foldl_budget hstep xs _ k (hstep s x _ ?_)
      rwa [List.length_cons, Nat.mul_succ, show k + (c * xs.length + c) = k + c * xs.length + c by omega] at h

/-- A faulting fold whose every step, given `c` more of a budget, succeeds and spends at most `c`
of it, succeeds and spends at most `c` for each element. -/
theorem foldlM_budget {σ α ε : Type} {step : σ → α → Except ε σ} {I : Nat → σ → Prop} {c : Nat} :
    ∀ (xs : List α), (∀ s x k, x ∈ xs → I (k + c) s → ∃ s', step s x = .ok s' ∧ I k s') →
      ∀ (s : σ) (k : Nat), I (k + c * xs.length) s → ∃ s', xs.foldlM step s = .ok s' ∧ I k s'
  | [], _, s, k, h => ⟨s, rfl, by simpa using h⟩
  | x :: xs, hstep, s, k, h => by
      rw [List.length_cons, Nat.mul_succ, show k + (c * xs.length + c) = k + c * xs.length + c by omega] at h
      obtain ⟨s₁, h₁, hI₁⟩ := hstep s x _ List.mem_cons_self h
      obtain ⟨s', h', hI'⟩ := foldlM_budget xs (fun s y k hy => hstep s y k (List.mem_cons_of_mem _ hy)) s₁ k hI₁
      exact ⟨s', by rw [List.foldlM_cons, h₁]; exact h', hI'⟩

/-- A bind succeeds, with a property of its result, when its first computation succeeds with a
property from which the rest does. -/
theorem except_bind_ok {ε α β : Type} {x : Except ε α} {f : α → Except ε β} {P : α → Prop} {Q : β → Prop}
    (hx : ∃ a, x = .ok a ∧ P a) (hf : ∀ a, P a → ∃ y, f a = .ok y ∧ Q y) : ∃ y, x >>= f = .ok y ∧ Q y := by
  obtain ⟨a, rfl, ha⟩ := hx
  exact hf a ha

/-- A bind succeeds when its first computation does and the rest does from every result. -/
theorem except_bind_total {ε α β : Type} {x : Except ε α} {f : α → Except ε β} (hx : ∃ a, x = .ok a)
    (hf : ∀ a, ∃ y, f a = .ok y) : ∃ y, x >>= f = .ok y := by
  obtain ⟨a, rfl⟩ := hx
  exact hf a

namespace Builder

variable {b : Builder} {k : Nat}

@[simp]
theorem push_fault (i : Inst) : (b.push i).fault = b.fault := by
  rcases b with ⟨next, _ | ⟨o, os⟩, fault⟩ <;> rfl

@[simp]
theorem endLoop_fault : b.endLoop.fault = b.fault := by
  unfold endLoop
  split <;> simp

@[simp]
theorem extend_fault (is : List Inst) : (b.extend is).fault = b.fault := by
  induction is generalizing b with
  | nil => rfl
  | cons i is ih => exact (ih (b := b.push i)).trans (push_fault i)

/-- The builder has met no fault and can still hand out `k` registers. -/
def Room (k : Nat) (b : Builder) : Prop := b.fault = none ∧ b.next + k ≤ Word.max32

theorem room_startingAt {n : Nat} (h : n + k ≤ Word.max32) : Room k (startingAt n) := ⟨rfl, h⟩

theorem Room.mono {k' : Nat} (h : Room k b) (hk : k' ≤ k) : Room k' b :=
  ⟨h.1, Nat.le_trans (Nat.add_le_add_left hk _) h.2⟩

/-- A fresh register is one of those to spare, and the builder meets no fault handing it out. -/
theorem Room.fresh (h : Room (k + 1) b) : Room k b.fresh.2 := by
  obtain ⟨hf, hn⟩ := h
  have hfit : ¬ b.next + 1 > Word.max32 := by omega
  refine ⟨by simp [Builder.fresh, hfit, hf], ?_⟩
  rw [fresh_next]
  omega

theorem Room.push (h : Room k b) (i : Inst) : Room k (b.push i) := by
  unfold Room
  rw [push_fault, push_next]
  exact h

theorem Room.define (h : Room (k + 1) b) (mk : Nat → Inst) : Room k (b.define mk).2 :=
  h.fresh.push _

theorem Room.load (h : Room (k + 1) b) (ty : Ty) (ptr : Operand) (off : Nat) (r : Option ValueRange) :
    Room k (b.load ty ptr off r).2 :=
  h.define _

theorem Room.beginLoop (h : Room (k + 1) b) (bound : Operand) : Room k (b.beginLoop bound).2 :=
  h.fresh

theorem Room.endLoop (h : Room k b) : Room k b.endLoop := by
  unfold Room
  rw [endLoop_fault, endLoop_next]
  exact h

theorem Room.extend (h : Room k b) (is : List Inst) : Room k (b.extend is) := by
  unfold Room
  rw [extend_fault, extend_next]
  exact h

end Builder

/-! ## Context loads -/

/-- A device each of whose limits has a successor in a 64-bit word: the largest local size of
every dimension and the widest grid. -/
structure DeviceConfig.LeavesRoom (c : DeviceConfig) : Prop where
  sizes : ∀ d < 3, c.maxWorkItemSizes.getD d 1 < Word.max
  grid : c.maxGridDimWidth < Word.max

section Loads

variable {c : DeviceConfig}

theorem DeviceConfig.LeavesRoom.getD_lt (hc : c.LeavesRoom) (d : Nat) : c.maxWorkItemSizes.getD d 1 < Word.max := by
  by_cases hd : d < 3
  · exact hc.sizes d hd
  · -- past the third dimension the limit is the default, one
    have : c.maxWorkItemSizes.getD d 1 = 1 := by
      match d, hd with
      | n + 3, _ => rfl
    rw [this]
    decide

/-- On a validated device that leaves room, the static range of every context element is one. -/
theorem ContextField.range_ok (hc : c.validate = none) (hroom : c.LeavesRoom) (f : ContextField) (dim : Nat) :
    ∃ r, f.range c dim = .ok r := by
  have hdims := (c.widths_of_validate hc).2.2.2
  cases f with
  | localSize =>
      have := hroom.getD_lt dim
      exact ⟨_, by simp [ContextField.range, show ¬ c.maxWorkItemSizes.getD dim 1 + 1 > Word.max by omega]; rfl⟩
  | numGroups =>
      have := hroom.grid
      exact ⟨_, by simp [ContextField.range, show ¬ c.maxGridDimWidth + 1 > Word.max by omega]; rfl⟩
  | workDim =>
      have : c.maxWorkItemDims + 1 ≤ Word.max := Nat.le_trans (Nat.add_le_add_right hdims 1) (by decide)
      exact ⟨_, by simp [ContextField.range, show ¬ c.maxWorkItemDims + 1 > Word.max by omega]; rfl⟩
  | _ => exact ⟨_, rfl⟩

open Builder

/-- A context load spends one register and meets no fault. -/
theorem loadFromContext_ok (hc : c.validate = none) (hroom : c.LeavesRoom) {b : Builder} {k : Nat}
    (h : Room (k + 1) b) (l : ContextLayout) (ctx : Operand) (f : ContextField) (dim : Nat) :
    ∃ r b', loadFromContext b c l ctx f dim = .ok (r, b') ∧ Room k b' := by
  obtain ⟨rng, hr⟩ := ContextField.range_ok hc hroom f dim
  exact ⟨_, _, by simp [loadFromContext, hr, bind, Except.bind, pure, Except.pure]; rfl, h.load _ _ _ _⟩

end Loads

/-! ## Launchers -/

namespace LauncherGen

open Builder

variable {g : LauncherGen} {b : Builder} {k : Nat}

theorem loadField_ok (hc : g.cfg.validate = none) (hroom : g.cfg.LeavesRoom) (h : Room (k + 1) b)
    (ctx : Operand) (f : ContextField) (dim : Nat) : ∃ o b', g.loadField b ctx f dim = .ok (o, b') ∧ Room k b' := by
  obtain ⟨r, b', hload, hb'⟩ := loadFromContext_ok hc hroom h g.context ctx f dim
  exact ⟨.reg r, b', by simp [loadField, hload, bind, Except.bind, pure, Except.pure], hb'⟩

/-- A work-item loop's bound is a constant or one context load. -/
theorem localBound_ok (hc : g.cfg.validate = none) (hroom : g.cfg.LeavesRoom) (h : Room (k + 1) b)
    (ctx : Operand) (bounds : Bounds) (dim : Nat) :
    ∃ o b', g.localBound b ctx bounds dim = .ok (o, b') ∧ Room k b' := by
  unfold localBound
  split
  · exact ⟨_, _, rfl, h.mono (Nat.le_succ k)⟩
  · cases bounds with
    | fixed size => exact ⟨_, _, rfl, h.mono (Nat.le_succ k)⟩
    | context => exact loadField_ok hc hroom h ctx .localSize dim

/-- Unpacking an argument buffer spends at most two registers for each slot. -/
theorem room_unpack (l : ArgBufferLayout) (h : Room (k + 2 * l.slots.length) b) : Room k (g.unpack b l).2 := by
  unfold unpack
  refine foldl_budget (I := fun k (s : List Operand × Builder) => Room k s.2) (fun s x k hs => ?_) l.slots ([], b) k h
  obtain ⟨args, b⟩ := s
  -- a load, an allocation and a copy, or a load of the size and an allocation
  rcases x.kind with _ | _ | _ | ⟨_ | _⟩
  · exact (hs.mono (by omega)).load _ _ _ _
  · exact (hs.mono (by omega)).load _ _ _ _
  · exact ((hs.mono (by omega)).define _).push _
  · exact (hs.mono (by omega)).load _ _ _ _
  · dsimp only [Builder.load, Builder.define, Builder.fresh]
    exact (hs.load (Ty.sizeT g.cfg.sizeTWidth) (.param 0) x.offset none).define _

/-- The body call spends three registers, for the placeholders of the local ids. -/
theorem room_bodyCall (h : Room (k + 3) b) (body : String) (args : List Operand) (ctx : Operand) :
    Room k (bodyCall b body args ctx).2 := by
  unfold bodyCall
  split
  rename_i ids b' hids
  -- one placeholder for each local id
  have hb' : Room k (ids, b').2 := hids ▸ foldl_budget (I := fun k (s : List Nat × Builder) => Room k s.2) (c := 1)
    (fun s p k hs => ?_) localIdParams ([], b) k (by simpa [localIdParams] using h)
  · exact hb'.push _
  · obtain ⟨ids, b⟩ := s
    dsimp only [Builder.placeholder, Builder.define, Builder.fresh]
    exact hs.fresh.push _

/-- Opening the work-item loops spends one register for each loop, at most three. -/
theorem room_openLoops (h : Room (k + 3) b) (bounds : List Operand) : Room k (openLoops b bounds).2.2 := by
  unfold openLoops
  refine foldl_budget (I := fun k (s : List Operand × Nat × Builder) => Room k s.2.2) (c := 1)
    (fun s dim k hs => ?_) [2, 1, 0] _ k (by simpa using h)
  obtain ⟨ids, opened, b⟩ := s
  dsimp only
  split
  · exact hs.mono (Nat.le_succ k)
  · exact hs.beginLoop _

theorem Room.closeLoops (h : Room k b) (n : Nat) : Room k (closeLoops b n) :=
  foldl_budget (I := fun k b => Room k b) (c := 0) (fun b _ k hb => (hb.mono (by omega)).endLoop) (List.range n) b k
    (by simpa using h)

theorem room_resolve (h : Room k b) (placeholders : List Nat) (ids : List Operand) :
    Room k (resolve b placeholders ids) :=
  Room.extend (b := { Builder.startingAt b.next with fault := b.fault }) h _

/-- Work-item loops spend at most nine registers: a context load and a loop for each dimension and
a placeholder for each local id. -/
theorem workItemLoops_ok (hc : g.cfg.validate = none) (hroom : g.cfg.LeavesRoom) (h : Room (k + 9) b)
    (body : String) (args : List Operand) (ctx : Operand) (bounds : Bounds) :
    ∃ b', g.workItemLoops b body args ctx bounds = .ok b' ∧ Room k b' := by
  unfold workItemLoops
  refine except_bind_ok (P := fun s : List Operand × Builder => Room (k + 6) s.2)
    (foldlM_budget (I := fun k (s : List Operand × Builder) => Room k s.2) (c := 1) _ (fun s dim k _ hs => ?_) _ _
      (by simpa using h)) ?_
  · obtain ⟨acc, b⟩ := s
    obtain ⟨e, b', he, hb'⟩ := localBound_ok hc hroom hs ctx bounds dim
    exact ⟨(acc ++ [e], b'), by simp [he, bind, Except.bind, pure, Except.pure], hb'⟩
  · rintro ⟨extents, b₁⟩ hb₁
    dsimp only
    have hopen := room_openLoops (k := k + 3) hb₁ extents
    rcases hO : openLoops b₁ extents with ⟨ids, opened, b₂⟩
    rw [hO] at hopen
    have hcall := room_bodyCall hopen body args ctx
    rcases hB : bodyCall b₂ body args ctx with ⟨placeholders, b₃⟩
    rw [hB] at hcall
    exact ⟨_, rfl, room_resolve (Room.closeLoops hcall _) _ _⟩

/-- Asking the hardware for the local ids spends at most six registers: an id for each dimension
and a placeholder for each. -/
theorem room_hardwareIds (h : Room (k + 6) b) (body : String) (args : List Operand) (ctx : Operand) :
    Room k (g.hardwareIds b body args ctx) := by
  unfold hardwareIds
  split
  rename_i ids b₁ hids
  have hb₁ : Room (k + 3) (ids, b₁).2 := hids ▸ foldl_budget (I := fun k (s : List Operand × Builder) => Room k s.2)
    (c := 1) (fun s d k hs => ?_) _ _ (k + 3) ?_
  · have hcall := room_bodyCall hb₁ body args ctx
    rcases hB : bodyCall b₁ body args ctx with ⟨placeholders, b₂⟩
    rw [hB] at hcall
    exact room_resolve hcall _ _
  · obtain ⟨ids, b⟩ := s
    dsimp only [Builder.callValue, Builder.define, Builder.fresh]
    exact hs.fresh.push _
  · -- a device has at most three dimensions to ask for
    exact h.mono (by simp; omega)

/-- Group loops spend at most seven registers: a context load and a loop for each dimension and
the copy of the context. -/
theorem groupLoops_ok (hc : g.cfg.validate = none) (hroom : g.cfg.LeavesRoom) (h : Room (k + 7) b)
    (launcher : String) (args : List Operand) (ctx : Operand) :
    ∃ b', g.groupLoops b launcher args ctx = .ok b' ∧ Room k b' := by
  unfold groupLoops
  refine except_bind_ok (P := fun s : List Operand × Builder => Room (k + 4) s.2)
    (foldlM_budget (I := fun k (s : List Operand × Builder) => Room k s.2) (c := 1) _ (fun s dim k _ hs => ?_) _ _
      (by simpa using h)) ?_
  · obtain ⟨acc, b⟩ := s
    dsimp only
    split
    · obtain ⟨o, b', ho, hb'⟩ := loadField_ok hc hroom hs ctx .numGroups dim
      exact ⟨(acc ++ [o], b'), by simp [ho, bind, Except.bind, pure, Except.pure], hb'⟩
    · exact ⟨_, rfl, hs.mono (Nat.le_succ k)⟩
  · rintro ⟨groups, b₁⟩ hb₁
    dsimp only
    have hcopy : Room (k + 3) (b₁.alloca g.cfg.addressSpaces.contextSpace (.imm g.context.size)
        g.context.align).2 := hb₁.define _
    refine ⟨_, rfl, Room.closeLoops (Room.push ?_ _) _⟩
    -- a loop and a store of the group id for each dimension
    refine foldl_budget (I := fun k (s : Nat × Builder) => Room k s.2) (c := 1) (fun s dim k hs => ?_) _ _ k
      (by simpa [Builder.memcpy] using hcopy.push _)
    split
    · exact (hs.mono (Nat.le_succ k)).push _
    · exact (hs.beginLoop _).push _

theorem Room.ret_fault (h : Room k b) : b.ret.fault = none := by
  rw [Builder.ret, push_fault]
  exact h.1

/-- A launcher is generated whenever its builder can spend nine registers and two more for each
slot it unpacks. -/
theorem generate_ok (hc : g.cfg.validate = none) (hroom : g.cfg.LeavesRoom) (v : Variant)
    (hslots : ∀ l, v.args = .unpack l → 9 + 2 * l.slots.length ≤ Word.max32) : ∃ r, g.generate v = .ok r := by
  suffices h : ∃ r, g.generate v = .ok r ∧ True from h.imp fun _ h => h.1
  obtain ⟨kind, signature, args, iteration⟩ := v
  -- the builder holds no fault once the launcher returns
  -- the arguments leave nine registers
  have hstart : Room 9 (startingAt 0) := room_startingAt (by decide)
  have hunpack : ∀ l, args = .unpack l → Room 9 (g.unpack (startingAt 0) l).2 := fun l hl =>
    room_unpack l (room_startingAt (by simpa using hslots l hl))
  unfold generate
  -- every launcher ends alike: it returns, and its builder holds no fault
  cases args <;> cases iteration <;>
    refine except_bind_ok (P := Room 0) ?_ fun b' hb' => ⟨_, by dsimp only; rw [Room.ret_fault hb']; rfl, trivial⟩
  -- iterating spends at most nine registers
  case forward.workItems => exact workItemLoops_ok hc hroom hstart _ _ _ _
  case forward.once => exact ⟨_, rfl, (hstart.push _).mono (Nat.zero_le _)⟩
  case forward.hardware => exact ⟨_, rfl, room_hardwareIds (hstart.mono (by omega)) _ _ _⟩
  case forward.delegate => exact ⟨_, rfl, (hstart.push _).mono (Nat.zero_le _)⟩
  case forward.groups => exact groupLoops_ok hc hroom (hstart.mono (by omega)) _ _ _
  case unpack.workItems l _ _ => exact workItemLoops_ok hc hroom (hunpack l rfl) _ _ _ _
  case unpack.once l _ => exact ⟨_, rfl, ((hunpack l rfl).push _).mono (Nat.zero_le _)⟩
  case unpack.hardware l _ => exact ⟨_, rfl, room_hardwareIds ((hunpack l rfl).mono (by omega)) _ _ _⟩
  case unpack.delegate l _ => exact ⟨_, rfl, ((hunpack l rfl).push _).mono (Nat.zero_le _)⟩
  case unpack.groups l _ => exact groupLoops_ok hc hroom ((hunpack l rfl).mono (by omega)) _ _ _

end LauncherGen

end KernelLaunch
