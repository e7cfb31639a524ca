import KernelLaunch.Ir.Syntax
import KernelLaunch.Fault
/-!
# Building function bodies

A builder hands out fresh registers and collects instructions. Loops are
emitted by bracketing: `beginLoop` opens a nested body and returns its
induction register, `endLoop` closes it and appends the finished loop to the
enclosing body. `finish` closes the loops still open.

Registers are 32-bit words; handing out a register past the largest one is a
fault, which the builder keeps and reports on request.
-/

namespace KernelLaunch

/-- An open body: the header of the loop it belongs to (none for the root)
and its instructions so far. -/
structure OpenBody where
  header : Option (Nat × Operand)
  insts : Array Inst
  deriving Inhabited

/-- A function-body builder. -/
structure Builder where
  /-- The next register to hand out. -/
  next : Nat
  /-- Open bodies, innermost first; the root body is last. -/
  open_ : List OpenBody
  /-- The first fault met, if any. -/
  fault : Option Fault := none
  deriving Inhabited

namespace Builder

/-- A builder whose first fresh register is `next`. -/
def startingAt (next : Nat) : Builder := { next, open_ := [⟨none, #[]⟩] }

/-- A fresh register. -/
def fresh (b : Builder) : Nat × Builder :=
  let fault := if b.next + 1 > Word.max32 && b.fault.isNone then some Fault.addOverflow else b.fault
  (b.next, { b with next := b.next + 1, fault })

/-- Appends an instruction to the innermost open body. -/
def push (b : Builder) (i : Inst) : Builder :=
  match b.open_ with
  | o :: os => { b with open_ := { o with insts := o.insts.push i } :: os }
  | [] => b

/-- Appends instructions in order. -/
def extend (b : Builder) (is : List Inst) : Builder := is.foldl push b

/-- Appends an instruction that defines a fresh register, and returns it. -/
def define (b : Builder) (mk : Nat → Inst) : Nat × Builder :=
  let (r, b) := b.fresh
  (r, b.push (mk r))

/-- `%r = op lhs, rhs`. -/
def bin (b : Builder) (op : BinOp) (lhs rhs : Operand) : Nat × Builder :=
  b.define fun d => .bin d op lhs rhs

/-- A typed load. -/
def load (b : Builder) (ty : Ty) (ptr : Operand) (offset : Nat) (range : Option ValueRange) : Nat × Builder :=
  b.define fun d => .load d ty ptr offset range

/-- A typed store. -/
def store (b : Builder) (ty : Ty) (ptr : Operand) (offset : Nat) (value : Operand) : Builder :=
  b.push (.store ty ptr offset value)

/-- An allocation. -/
def alloca (b : Builder) (space : Nat) (size : Operand) (align : Nat) : Nat × Builder :=
  b.define fun d => .alloca d space size align

/-- A copy of `len` bytes. -/
def memcpy (b : Builder) (dst src : Operand) (srcOffset len : Nat) : Builder :=
  b.push (.memcpy dst src srcOffset len)

/-- A call without a result. -/
def call (b : Builder) (callee : String) (args : List Operand) : Builder :=
  b.push (.call none callee args)

/-- A call whose result goes to a fresh register. -/
def callValue (b : Builder) (callee : String) (args : List Operand) : Nat × Builder :=
  b.define fun d => .call (some d) callee args

/-- A placeholder register. -/
def placeholder (b : Builder) (name : String) : Nat × Builder :=
  b.define fun d => .placeholder d name

/-- Opens a loop over `0..bound` and returns its induction register. -/
def beginLoop (b : Builder) (bound : Operand) : Nat × Builder :=
  let (v, b) := b.fresh
  (v, { b with open_ := ⟨some (v, bound), #[]⟩ :: b.open_ })

/-- Closes the innermost loop; nothing happens when no loop is open. -/
def endLoop (b : Builder) : Builder :=
  match b.open_ with
  | ⟨some (v, bound), insts⟩ :: rest@(_ :: _) =>
      ({ b with open_ := rest } : Builder).push (.loop v bound insts.toList)
  | _ => b

/-- `ret`. -/
def ret (b : Builder) : Builder := b.push .ret

/-- Closes the loops still open and returns the root body. -/
def finish (b : Builder) : List Inst :=
  let closed := (List.range b.open_.length).foldl (fun b _ => endLoop b) b
  match closed.open_.getLast? with
  | some o => o.insts.toList
  | none => []

end Builder

end KernelLaunch
