import KernelLaunch.Proofs.Launch.Room
import KernelLaunch.Proofs.Ir.Nesting
/-!
# Loops built by bracketing

A builder emits a loop by bracketing: `beginLoop` opens a body of its own, every instruction
appended while it is open goes into it, and `endLoop` closes it into the body around it; `finish`
closes what is still open, innermost first. `Builder.Op` names the calls of that interface, and
`Builder.performAll` makes a sequence of them.

What a sequence is to build is said without building anything (`Builder.Op.listing`): each
appended instruction, in call order, among the loops begun and not yet ended when it was
appended, and each loop, with the register and bound of its `beginLoop`, where it was begun. An
`endLoop` with no loop open does nothing.

The invariant is `Builder.Stacked`: every open body but the root belongs to a loop. What a stack
of open bodies holds is read as the listing of the body it closes to (`Builder.stackListing`):
appending adds to its end, beginning a loop adds the loop's header, and closing a loop changes
nothing. Main statement: `finish_performAll`, that `finish` answers exactly the body with the
intended listing, and that the registers handed out are consecutive from the first one, flagged
as a fault once one of them has no 32-bit successor.
-/

namespace KernelLaunch

namespace Builder

open Inst

/-! ## The interface -/

/-- A call of the builder's interface, with its arguments. -/
inductive Op where
  | fresh
  | push (i : Inst)
  | extend (is : List Inst)
  | bin (op : BinOp) (lhs rhs : Operand)
  | load (ty : Ty) (ptr : Operand) (offset : Nat) (range : Option ValueRange)
  | store (ty : Ty) (ptr : Operand) (offset : Nat) (value : Operand)
  | alloca (space : Nat) (size : Operand) (align : Nat)
  | memcpy (dst src : Operand) (srcOffset len : Nat)
  | call (callee : String) (args : List Operand)
  | callValue (callee : String) (args : List Operand)
  | placeholder (name : String)
  | beginLoop (bound : Operand)
  | endLoop
  | ret

/-- Makes one call: the register it hands out, if any, and the builder after it. -/
def perform (b : Builder) : Op → Option Nat × Builder
  | .fresh => let (r, b) := b.fresh; (some r, b)
  | .push i => (none, b.push i)
  | .extend is => (none, b.extend is)
  | .bin op lhs rhs => let (r, b) := b.bin op lhs rhs; (some r, b)
  | .load ty ptr offset range => let (r, b) := b.load ty ptr offset range; (some r, b)
  | .store ty ptr offset value => (none, b.store ty ptr offset value)
  | .alloca space size align => let (r, b) := b.alloca space size align; (some r, b)
  | .memcpy dst src srcOffset len => (none, b.memcpy dst src srcOffset len)
  | .call callee args => (none, b.call callee args)
  | .callValue callee args => let (r, b) := b.callValue callee args; (some r, b)
  | .placeholder name => let (r, b) := b.placeholder name; (some r, b)
  | .beginLoop bound => let (r, b) := b.beginLoop bound; (some r, b)
  | .endLoop => (none, b.endLoop)
  | .ret => (none, b.ret)

/-- Makes calls in order: the registers handed out, in order, and the builder after them. -/
def performAll (b : Builder) : List Op → List Nat × Builder
  | [] => ([], b)
  | op :: ops =>
      let (r, b₁) := b.perform op
      let (rs, b₂) := b₁.performAll ops
      (r.toList ++ rs, b₂)

namespace Op

/-- Whether a call hands out a register. -/
def takesRegister : Op → Bool
  | .fresh | .bin .. | .load .. | .alloca .. | .callValue .. | .placeholder _ | .beginLoop _ => true
  | _ => false

/-- The instructions a call appends to the innermost open body, when `r` is the next register. -/
def appends (r : Nat) : Op → List Inst
  | .push i => [i]
  | .extend is => is
  | .bin op lhs rhs => [.bin r op lhs rhs]
  | .load ty ptr offset range => [.load r ty ptr offset range]
  | .store ty ptr offset value => [.store ty ptr offset value]
  | .alloca space size align => [.alloca r space size align]
  | .memcpy dst src srcOffset len => [.memcpy dst src srcOffset len]
  | .call callee args => [.call none callee args]
  | .callValue callee args => [.call (some r) callee args]
  | .placeholder name => [.placeholder r name]
  | .ret => [.ret]
  | .fresh | .beginLoop _ | .endLoop => []

/-- The bound of the loop a call begins. -/
def opens : Op → Option Operand
  | .beginLoop bound => some bound
  | _ => none

/-- The loops open after a call, outermost first, from those open before it: a begun loop goes
innermost, an ended one leaves, and an end with no loop open leaves none. -/
def loopsAfter (loops : List (Nat × Operand)) (r : Nat) : Op → List (Nat × Operand)
  | .beginLoop bound => loops ++ [(r, bound)]
  | .endLoop => loops.dropLast
  | _ => loops

/-- The entries a call adds to the listing, among the loops open at the call: what it appends,
or the header of the loop it begins. -/
def entries (loops : List (Nat × Operand)) (r : Nat) (op : Op) : List (List (Nat × Operand) × Inst) :=
  (nestingList (op.appends r)).map (under loops) ++ (op.opens.map fun bound => (loops, Inst.loop r bound [])).toList

/-- The listing a sequence of calls is to build, from the loops open at its start and the next
register. -/
def listing : List (Nat × Operand) → Nat → List Op → List (List (Nat × Operand) × Inst)
  | _, _, [] => []
  | loops, r, op :: ops => op.entries loops r ++ listing (op.loopsAfter loops r) (r + op.takesRegister.toNat) ops

end Op

/-! ## Each call -/

variable (b : Builder)

theorem fresh_fault_eq_none : b.fresh.2.fault = none ↔ b.fault = none ∧ b.next < Word.max32 := by
  unfold fresh
  by_cases hf : b.fault = none <;> by_cases hn : b.next + 1 > Word.max32 <;> simp [hf, hn] <;> omega

/-- A call hands out the next register exactly when it takes one. -/
theorem perform_fst (op : Op) : (b.perform op).1 = if op.takesRegister then some b.next else none := by
  cases op <;> rfl

theorem perform_next (op : Op) : (b.perform op).2.next = b.next + op.takesRegister.toNat := by
  cases op <;> simp [perform, Op.takesRegister, Builder.bin, Builder.load, Builder.store, Builder.alloca,
    Builder.memcpy, Builder.call, Builder.callValue, Builder.placeholder, Builder.ret]

/-- A call keeps the builder free of faults exactly when it hands out no register without a 32-bit
successor. -/
theorem perform_fault_eq_none (op : Op) :
    (b.perform op).2.fault = none ↔ b.fault = none ∧ (op.takesRegister = true → b.next < Word.max32) := by
  cases op <;> simp [perform, Op.takesRegister, Builder.bin, Builder.load, Builder.store, Builder.alloca,
    Builder.memcpy, Builder.call, Builder.callValue, Builder.placeholder, Builder.ret, define,
    beginLoop, fresh_fault_eq_none]

theorem perform_beginLoop_snd (bound : Operand) : (b.perform (.beginLoop bound)).2 = (b.beginLoop bound).2 := rfl

theorem perform_endLoop_snd : (b.perform .endLoop).2 = b.endLoop := rfl

/-- Every call but a loop's beginning or end appends its instructions to the innermost body. -/
theorem perform_open_of_appends {op : Op} (hb : op.opens = none) (he : op ≠ .endLoop) :
    (b.perform op).2.open_ = pushAll b.open_ (op.appends b.next) := by
  cases op <;> simp_all [perform, Op.opens, Op.appends, pushAll, extend_open, Builder.bin, Builder.load,
    Builder.store, Builder.alloca, Builder.memcpy, Builder.call, Builder.callValue, Builder.placeholder,
    Builder.ret]

/-! ## The stack of open bodies -/

/-- A stack of open bodies, innermost first, in which the root body is last and every other body
belongs to a loop. -/
inductive Stacked : List OpenBody → Prop
  | root (insts : Array Inst) : Stacked [⟨none, insts⟩]
  | loop (h : Nat × Operand) (insts : Array Inst) {os : List OpenBody} : Stacked os → Stacked (⟨some h, insts⟩ :: os)

/-- The headers of the open loops of a stack, outermost first. -/
def openLoops (os : List OpenBody) : List (Nat × Operand) := os.reverse.filterMap (·.header)

/-- The listing of the body a stack closes to: below each open body, the listing of the bodies
under it, then the header of its loop, then its instructions among the loops open around them. -/
def stackListing : List OpenBody → List (List (Nat × Operand) × Inst)
  | [] => []
  | o :: os => stackListing os ++ (o.header.map fun h => (openLoops os, Inst.loop h.1 h.2 [])).toList ++
      (nestingList o.insts.toList).map (under (openLoops (o :: os)))

@[simp] theorem openLoops_cons (o : OpenBody) (os : List OpenBody) :
    openLoops (o :: os) = openLoops os ++ o.header.toList := by
  rw [openLoops, List.reverse_cons, List.filterMap_append, openLoops]
  congr 1

@[simp] theorem openLoops_nil : openLoops [] = [] := rfl

theorem startingAt_stacked (n : Nat) : Stacked (startingAt n).open_ := Stacked.root #[]

namespace Stacked

variable {os : List OpenBody}

theorem ne_nil (hs : Stacked os) : os ≠ [] := by
  cases hs <;> simp

/-- Appending to the innermost body adds the instructions' listing at the end, among the open
loops. -/
theorem pushAll (hs : Stacked os) (is : List Inst) :
    Stacked (Builder.pushAll os is) ∧
      stackListing (Builder.pushAll os is) = stackListing os ++ (nestingList is).map (under (openLoops os)) ∧
      openLoops (Builder.pushAll os is) = openLoops os := by
  cases hs with
  | root insts => simp [stackListing, Stacked.root]
  | loop h insts hrest => simp [stackListing, Stacked.loop h _ hrest]

/-- Beginning a loop adds its header at the end, among the loops open before it, and opens it
innermost. -/
theorem beginLoop (hs : Stacked os) (v : Nat) (bound : Operand) :
    Stacked (⟨some (v, bound), #[]⟩ :: os) ∧
      stackListing (⟨some (v, bound), #[]⟩ :: os) = stackListing os ++ [(openLoops os, .loop v bound [])] ∧
      openLoops (⟨some (v, bound), #[]⟩ :: os) = openLoops os ++ [(v, bound)] := by
  simp [stackListing, Stacked.loop _ _ hs]

/-- Closing the innermost loop changes nothing of the body the stack closes to, and ends that
loop. -/
theorem closeTop (hs : Stacked os) :
    Stacked (Builder.closeTop os) ∧ stackListing (Builder.closeTop os) = stackListing os ∧
      openLoops (Builder.closeTop os) = (openLoops os).dropLast := by
  cases hs with
  | root insts => simp [stackListing, Stacked.root]
  | loop h insts hrest =>
      obtain ⟨o, os, rfl⟩ := List.exists_cons_of_ne_nil hrest.ne_nil
      -- the closed loop is appended to the body below it, whose listing ends where the loop's began
      obtain ⟨hs', hl, ho⟩ := hrest.pushAll [.loop h.1 h.2 insts.toList]
      refine ⟨hs', ?_, ?_⟩
      · change stackListing (Builder.pushAll (o :: os) [.loop h.1 h.2 insts.toList]) = _
        rw [hl]
        simp [stackListing, nesting, under]
      · change openLoops (Builder.pushAll (o :: os) [.loop h.1 h.2 insts.toList]) = _
        simp

theorem length_closeTop (hs : Stacked os) : (Builder.closeTop os).length = max 1 (os.length - 1) := by
  cases hs with
  | root insts => simp
  | loop h insts hrest =>
      obtain ⟨o, os, rfl⟩ := List.exists_cons_of_ne_nil hrest.ne_nil
      simp [Builder.closeTop, pushTop]

/-- Closing loops one after another keeps the stack and what it closes to, down to the root
body alone. -/
theorem foldl_closeTop (l : List Nat) (hs : Stacked os) :
    Stacked (l.foldl (fun os _ => Builder.closeTop os) os) ∧
      stackListing (l.foldl (fun os _ => Builder.closeTop os) os) = stackListing os ∧
      (l.foldl (fun os _ => Builder.closeTop os) os).length = max 1 (os.length - l.length) := by
  induction l generalizing os with
  | nil =>
      have : 1 ≤ os.length := List.length_pos_iff.mpr hs.ne_nil
      refine ⟨hs, rfl, ?_⟩
      rw [List.foldl_nil, List.length_nil, Nat.sub_zero]
      omega
  | cons x l ih =>
      obtain ⟨hs₁, hl₁, -⟩ := hs.closeTop
      obtain ⟨hs₂, hl₂, hlen⟩ := ih hs₁
      refine ⟨hs₂, hl₂.trans hl₁, ?_⟩
      rw [List.foldl_cons, hlen, hs.length_closeTop, List.length_cons]
      omega

/-- The body a stack finishes with is the one its listing describes. -/
theorem nestingList_finishStack (hs : Stacked os) : nestingList (finishStack os) = stackListing os := by
  obtain ⟨hs', hl, hlen⟩ := hs.foldl_closeTop (List.range os.length)
  rw [List.length_range, Nat.sub_self] at hlen
  unfold finishStack
  -- all loops closed, only the root body is left
  obtain ⟨o, ho⟩ := List.length_eq_one_iff.mp hlen
  rw [ho] at hs' hl
  cases hs' with
  | root insts => simpa [ho, stackListing] using hl
  | loop h insts hrest => exact absurd rfl hrest.ne_nil

end Stacked

/-- One call on a builder whose open bodies are stacked keeps them so, adds the call's entries to
the listing of what they close to, and leaves open the loops it should. -/
theorem Stacked.perform {b : Builder} (hs : Stacked b.open_) (op : Op) :
    Stacked (b.perform op).2.open_ ∧
      stackListing (b.perform op).2.open_ = stackListing b.open_ ++ op.entries (openLoops b.open_) b.next ∧
      openLoops (b.perform op).2.open_ = op.loopsAfter (openLoops b.open_) b.next := by
  cases op
  case beginLoop bound =>
    rw [perform_beginLoop_snd, beginLoop_open]
    simpa [Op.entries, Op.appends, Op.opens, Op.loopsAfter] using hs.beginLoop b.next bound
  case endLoop =>
    rw [perform_endLoop_snd, endLoop_open]
    simpa [Op.entries, Op.appends, Op.opens, Op.loopsAfter] using hs.closeTop
  all_goals
    rw [perform_open_of_appends b rfl (by simp)]
    simpa [Op.entries, Op.opens, Op.loopsAfter] using hs.pushAll _

/-- A run of calls on a builder whose open bodies are stacked keeps them so, adds the listing the
calls are to build, and hands out consecutive registers from the next one. -/
theorem Stacked.performAll :
    ∀ (ops : List Op) {b : Builder}, Stacked b.open_ →
      Stacked (b.performAll ops).2.open_ ∧
        stackListing (b.performAll ops).2.open_ = stackListing b.open_ ++ Op.listing (openLoops b.open_) b.next ops ∧
        (b.performAll ops).1 = List.range' b.next (ops.countP Op.takesRegister) ∧
        ((b.performAll ops).2.fault = none ↔
          b.fault = none ∧ ∀ r ∈ List.range' b.next (ops.countP Op.takesRegister), r < Word.max32)
  | [], b, hs => by simp [Builder.performAll, Op.listing, hs]
  | op :: ops, b, hs => by
      obtain ⟨hs₁, hl₁, ho₁⟩ := hs.perform op
      obtain ⟨hs₂, hl₂, hr₂, hf₂⟩ := Stacked.performAll ops hs₁
      simp only [Builder.performAll]
      refine ⟨hs₂, ?_, ?_, ?_⟩
      · rw [hl₂, hl₁, ho₁, perform_next, Op.listing, List.append_assoc]
      · rw [hr₂, perform_fst, perform_next, List.countP_cons]
        cases op.takesRegister <;> simp [List.range'_succ]
      · rw [hf₂, perform_fault_eq_none, perform_next, List.countP_cons]
        cases op.takesRegister <;> simp [List.range'_succ, and_assoc]

/-- A sequence of calls on a new builder whose first register is `n`. `finish` answers exactly the
body in which every appended instruction sits, in call order, inside the loops begun and not yet
ended when it was appended, each loop carrying the register and bound of its `beginLoop`, the
loops left open closed around what they hold. The registers handed out are `n, n + 1, …` in call
order, none twice, and the builder keeps a fault exactly when one of them has no 32-bit
successor. -/
theorem finish_performAll (n : Nat) (ops : List Op) :
    (∀ t : List Inst, nestingList t = Op.listing [] n ops ↔ t = ((startingAt n).performAll ops).2.finish) ∧
      ((startingAt n).performAll ops).1 = List.range' n (ops.countP Op.takesRegister) ∧
      ((startingAt n).performAll ops).1.Nodup ∧
      (((startingAt n).performAll ops).2.fault = none ↔ ∀ r ∈ ((startingAt n).performAll ops).1, r < Word.max32) := by
  obtain ⟨hs, hl, hr, hf⟩ := Stacked.performAll ops (startingAt_stacked n)
  have hfinish : nestingList ((startingAt n).performAll ops).2.finish = Op.listing [] n ops := by
    rw [finish_eq, hs.nestingList_finishStack, hl]
    simp [stackListing]
  refine ⟨fun t => ⟨fun ht => nestingList_injective (ht.trans hfinish.symm), fun ht => ht ▸ hfinish⟩,
    hr, hr ▸ List.nodup_range', ?_⟩
  rw [hf, hr]
  simp [startingAt]

/-- A return appended while the outer of two loops is still open goes into that loop, which
`finish` closes. -/
example :
    ((startingAt 5).performAll [.beginLoop (.imm 2), .beginLoop (.imm 3), .call "f" [.reg 6, .reg 5],
        .endLoop, .ret]).2.finish =
      [.loop 5 (.imm 2) [.loop 6 (.imm 3) [.call none "f" [.reg 6, .reg 5]], .ret]] := rfl

end Builder

end KernelLaunch
