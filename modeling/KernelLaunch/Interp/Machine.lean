import KernelLaunch.Ir.Print
import KernelLaunch.Device.Config
import KernelLaunch.Bytes
/-!
# The reference interpreter

Memory is a list of byte regions, one per allocation, each tagged with its
address space. A pointer is a region and an offset; stored in memory it is a
word with `region + 1` in the high bits, so that zero stays the null
pointer: 8 high bits and a 24-bit offset for 4-byte pointers, 24 and 40 bits
otherwise.

Every call, barrier and formatted output is recorded as an event, the call
before the callee is looked up. Calls to declarations answer zero, except
the local-id intrinsic, which answers the local id the host has set. Each
instruction executed counts one step against a limit, and calls nest at most
256 deep.
-/

namespace KernelLaunch

/-- A pointer: a region and a byte offset into it. -/
structure Pointer where
  region : Nat
  offset : Nat
  deriving Repr, BEq, DecidableEq, Inhabited

/-- The pointer moved by a number of bytes, wrapping at the word size. -/
def Pointer.add (p : Pointer) (n : Nat) : Pointer := { p with offset := Word.wrappingAdd p.offset n }

/-- A run-time value: a word or a pointer. -/
inductive Value where
  | int (n : Nat)
  | ptr (p : Pointer)
  deriving Repr, BEq, DecidableEq, Inhabited

/-- The text of a value: the word, or `&region+offset`. -/
def Value.render : Value → String
  | .int n => toString n
  | .ptr p => "&" ++ toString p.region ++ "+" ++ toString p.offset

/-- Something the program did that a host can observe. -/
inductive Event where
  | call (callee : String) (args : List Value)
  | barrier
  | printf (format : String) (args : List Value)
  deriving Repr, Inhabited

/-- Why a run stopped. -/
inductive ExecError where
  | unknownFunction (name : String)
  | arity (callee : String) (expected got : Nat)
  | undefinedRegister (function : String) (reg : Nat)
  | missingParam (function : String) (index : Nat)
  | unprivatizedHandle (function : String) (handle : String)
  | badPointer (function : String) (value : String)
  | outOfBounds (region offset len size : Nat)
  | typeMismatch (function : String) (detail : String)
  | divisionByZero (function : String)
  | stepLimit (limit : Nat)
  | callDepth (depth : Nat)
  deriving Repr, Inhabited

/-- The wording of a run error. -/
def ExecError.message : ExecError → String
  | .unknownFunction n => "call to unknown function '" ++ n ++ "'"
  | .arity c e g => "'" ++ c ++ "' takes " ++ toString e ++ " arguments, got " ++ toString g
  | .undefinedRegister f r => "%r" ++ toString r ++ " read before definition in '" ++ f ++ "'"
  | .missingParam f i => "'" ++ f ++ "' has no parameter " ++ toString i
  | .unprivatizedHandle f h => "'" ++ f ++ "' reads implicit global @" ++ h
  | .badPointer f v => "'" ++ f ++ "' dereferences non-pointer " ++ v
  | .outOfBounds r o l s =>
      "access of " ++ toString l ++ " bytes at offset " ++ toString o ++ " is outside region " ++
        toString r ++ " (" ++ toString s ++ " bytes)"
  | .typeMismatch f d => "type mismatch in '" ++ f ++ "': " ++ d
  | .divisionByZero f => "division by zero in '" ++ f ++ "'"
  | .stepLimit n => "step limit of " ++ toString n ++ " exceeded"
  | .callDepth n => "call depth " ++ toString n ++ " exceeded"

/-- A stop of a run: an error of the program being run, or a fault of the
interpreter's own arithmetic. -/
inductive Stop where
  | error (e : ExecError)
  | fault (f : Fault)
  deriving Repr, Inhabited

/-- An allocation: its address space, its size, and the bytes written so far
from its start. Every byte past the stored ones is zero, so a large buffer
costs only what has been written into it. -/
structure Region where
  space : Nat
  size : Nat
  stored : ByteArray
  deriving Inhabited

namespace Region

/-- A region of `size` zero bytes. -/
def zeroed (space size : Nat) : Region := ⟨space, size, ByteArray.empty⟩

/-- A region holding exactly the given bytes. -/
def ofBytes (space : Nat) (bytes : ByteArray) : Region := ⟨space, bytes.size, bytes⟩

/-- The `len` bytes from offset `off`: the stored ones, then zeros. -/
def read (r : Region) (off len : Nat) : ByteArray :=
  let held := r.stored.extract off (off + len)
  held ++ Bytes.zeros (len - held.size)

/-- Every byte of the region. -/
def contents (r : Region) : ByteArray := r.read 0 r.size

/-- The number of nonzero bytes. -/
def nonzeroCount (r : Region) : Nat := (r.stored.toList.filter (· != 0)).length

/-- The region with `data` written from offset `off`. -/
def write (r : Region) (off : Nat) (data : ByteArray) : Region :=
  let need := off + data.size
  let base := if r.stored.size < need then r.stored ++ Bytes.zeros (need - r.stored.size) else r.stored
  { r with stored := Bytes.overwrite base off data.toList }

end Region

/-- The deepest call nesting. -/
def maxCallDepth : Nat := 256

/-- The default step limit. -/
def defaultStepLimit : Nat := 50000000

/-- The interpreter's state. -/
structure Machine where
  module : Module
  ptrBytes : Nat
  regions : Array Region := #[]
  events : Array Event := #[]
  localId : Dims3 := ⟨0, 0, 0⟩
  steps : Nat := 0
  stepLimit : Nat := defaultStepLimit
  depth : Nat := 0
  deriving Inhabited

/-- A computation of the interpreter; its state survives a stop. -/
abbrev Exec (α : Type) := EStateM Stop Machine α

namespace Machine

/-- A fresh machine for a module on a device. -/
def create (m : Module) (c : DeviceConfig) : Machine := { module := m, ptrBytes := c.ptrBytes }

/-- The bit position of the region tag in a stored pointer. -/
def regionShift (ptrBytes : Nat) : Nat := if ptrBytes == 4 then 24 else 40

/-- The word that stores a pointer. -/
def encodePtr (ptrBytes : Nat) (p : Pointer) : Except Fault Nat :=
  if p.region + 1 > Word.max then .error .addOverflow
  else .ok (((p.region + 1) * Nat.pow 2 (regionShift ptrBytes) % Word.size) ||| p.offset)

/-- The pointer a stored word holds; zero and other words without a region
tag hold none. -/
def decodePtr (ptrBytes : Nat) (raw : Nat) : Option Pointer :=
  let shift := regionShift ptrBytes
  let tag := raw / Nat.pow 2 shift
  if tag == 0 then none else some ⟨tag - 1, raw % Nat.pow 2 shift⟩

/-- Stops with a run error. -/
def stop {α : Type} (e : ExecError) : Exec α := throw (.error e)

/-- Stops on a fault. -/
def faultOf {α : Type} (r : Except Fault α) : Exec α :=
  match r with
  | .ok a => pure a
  | .error f => throw (.fault f)

/-- Adds a region. -/
def allocRegion (r : Region) : Exec Pointer := do
  let m ← get
  set { m with regions := m.regions.push r }
  pure ⟨m.regions.size, 0⟩

/-- Allocates a region holding the bytes. -/
def allocBytes (space : Nat) (bytes : ByteArray) : Exec Pointer := allocRegion (Region.ofBytes space bytes)

/-- Allocates a zeroed region. -/
def alloc (space size : Nat) : Exec Pointer := allocRegion (Region.zeroed space size)

/-- Checks an access of `len` bytes at a pointer and answers its region. -/
def bounds (p : Pointer) (len : Nat) : Exec Region := do
  let m ← get
  let size := match m.regions[p.region]? with | some r => r.size | none => 0
  match m.regions[p.region]? with
  | some r =>
      if p.offset + len ≤ Word.max && p.offset + len ≤ size then pure r
      else stop (.outOfBounds p.region p.offset len size)
  | none => stop (.outOfBounds p.region p.offset len size)

/-- The bytes at a pointer. -/
def readBytes (p : Pointer) (len : Nat) : Exec ByteArray := do
  let r ← bounds p len
  pure (r.read p.offset len)

/-- Writes bytes at a pointer. -/
def writeBytes (p : Pointer) (data : ByteArray) : Exec Unit := do
  let r ← bounds p data.size
  let updated := r.write p.offset data
  modify fun m => { m with regions := m.regions.set! p.region updated }

/-- Reads a word of the given width at a pointer. -/
def readWord (p : Pointer) (width : Nat) : Exec Nat := do
  let bytes ← readBytes p width
  faultOf (Bytes.readWord bytes 0 width)

/-- Records an event. -/
def record (e : Event) : Exec Unit := modify fun m => { m with events := m.events.push e }

/-- The word that stores a value. -/
def rawOf (v : Value) : Exec Nat := do
  match v with
  | .int n => pure n
  | .ptr p => faultOf (encodePtr (← get).ptrBytes p)

end Machine

/-- A call's state: the function, its arguments and its registers. -/
structure Frame where
  func : Function
  args : List Value
  regs : List (Nat × Value) := []

namespace Frame

/-- The frame with a register set. -/
def bind (fr : Frame) (r : Nat) (v : Value) : Frame :=
  { fr with regs := (r, v) :: fr.regs.filter (·.1 != r) }

/-- The value of an operand. -/
def eval (fr : Frame) : Operand → Exec Value
  | .reg r => match fr.regs.find? (·.1 == r) with
      | some (_, v) => pure v
      | none => Machine.stop (.undefinedRegister fr.func.name r)
  | .param i => match fr.args[i]? with
      | some v => pure v
      | none => Machine.stop (.missingParam fr.func.name i)
  | .imm v => pure (.int v)
  | .handle h => Machine.stop (.unprivatizedHandle fr.func.name h.kind.symbol)

/-- The word an operand holds. -/
def int (fr : Frame) (o : Operand) : Exec Nat := do
  match ← fr.eval o with
  | .int n => pure n
  | v => Machine.stop (.typeMismatch fr.func.name ("expected an integer, found " ++ v.render))

/-- The pointer an operand holds. -/
def pointer (fr : Frame) (o : Operand) : Exec Pointer := do
  match ← fr.eval o with
  | .ptr p => pure p
  | v => Machine.stop (.badPointer fr.func.name v.render)

end Frame

/-- Whether a body continues with the next instruction or returns. -/
inductive Flow where
  | next
  | ret
  deriving BEq, Inhabited

namespace Machine

/-- A binary operation on values: words wrap at the word size, shifts take
the amount modulo 64, and a pointer may be moved by adding or subtracting a
word. -/
def binary (fname : String) (op : BinOp) (l r : Value) : Exec Value :=
  match l, r with
  | .int a, .int b =>
      match op with
      | .add => pure (.int (Word.wrappingAdd a b))
      | .sub => pure (.int (Word.wrappingSub a b))
      | .mul => pure (.int (Word.wrappingMul a b))
      | .udiv => if b == 0 then stop (.divisionByZero fname) else pure (.int (a / b))
      | .urem => if b == 0 then stop (.divisionByZero fname) else pure (.int (a % b))
      | .bitAnd => pure (.int (a &&& b))
      | .bitOr => pure (.int (a ||| b))
      | .bitXor => pure (.int (a ^^^ b))
      | .shl => pure (.int (a * Nat.pow 2 (b % 64) % Word.size))
      | .lshr => pure (.int (a / Nat.pow 2 (b % 64)))
  | .ptr p, .int b =>
      match op with
      | .add => pure (.ptr (p.add b))
      | .sub => pure (.ptr (p.add ((Word.size - b % Word.size) % Word.size)))
      | _ => stop (.typeMismatch fname (op.mnemonic ++ " " ++ l.render ++ ", " ++ r.render))
  | _, _ => stop (.typeMismatch fname (op.mnemonic ++ " " ++ l.render ++ ", " ++ r.render))

/-- A typed load: a pointer type decodes the stored word, zero giving the word zero. -/
def loadValue (fname : String) (ty : Ty) (p : Pointer) : Exec Value := do
  if ty.isAggregate then stop (.typeMismatch fname ("load of aggregate " ++ ty.render))
  let m ← get
  let raw ← readWord p (ty.size m.ptrBytes)
  match ty with
  | .ptr _ => pure (match decodePtr m.ptrBytes raw with | some q => .ptr q | none => .int 0)
  | _ => pure (.int raw)

/-- A typed store. -/
def storeValue (fname : String) (ty : Ty) (p : Pointer) (v : Value) : Exec Unit := do
  if ty.isAggregate then stop (.typeMismatch fname ("store of aggregate " ++ ty.render))
  let raw ← rawOf v
  let bytes ← faultOf (Bytes.encodeWord (ty.size (← get).ptrBytes) raw)
  writeBytes p bytes

/-- Appends an output record: a 32-bit argument count, then an 8-byte word
per argument. The position word counts the bytes used; a record that does
not fit is dropped. -/
def appendOutput (buf pos : Pointer) (capacity : Nat) (values : List Value) : Exec Unit := do
  let used ← readWord pos 4
  let len := 4 + 8 * values.length
  if used + len > capacity then return
  let words ← values.mapM rawOf
  let record := Bytes.littleEndian values.length 4 ++ words.flatMap (fun w => Bytes.littleEndian w 8)
  writeBytes (buf.add used) (ByteArray.mk record.toArray)
  writeBytes pos (ByteArray.mk (Bytes.littleEndian (used + len) 4).toArray)

/-- What a call to a declaration answers. -/
def external (name : String) (args : List Value) : Exec Value := do
  if name == localIdIntrinsic then
    let dim := match args.head? with | some (.int n) => n | _ => 0
    pure (.int ((← get).localId.getD dim 0))
  else pure (.int 0)

/-- Runs a computation and reports its outcome without stopping. -/
def attempt {α : Type} (x : Exec α) : Exec (Except Stop α) := fun s =>
  match x s with
  | .ok a s' => .ok (.ok a) s'
  | .error e s' => .ok (.error e) s'

/-- Counts one step against the limit. -/
def tick : Exec Unit := do
  let m ← get
  if m.steps + 1 > m.stepLimit then
    set { m with steps := m.steps + 1 }
    stop (.stepLimit m.stepLimit)
  set { m with steps := m.steps + 1 }

/-- Runs `left` iterations of a loop from iteration `i` on, one `step` each,
stopping early when an iteration returns. -/
def iterate (step : Frame → Nat → Exec (Flow × Frame)) (fr : Frame) (i : Nat) : Nat → Exec (Flow × Frame)
  | 0 => pure (.next, fr)
  | left + 1 => do
      let (flow, fr) ← step fr i
      if flow == .ret then pure (.ret, fr) else iterate step fr (i + 1) left

mutual
/-- Runs a body until it ends or returns; `callFn` makes the calls it meets. -/
def block (callFn : String → List Value → Exec (Option Value)) (fr : Frame) :
    List Inst → Exec (Flow × Frame)
  | [] => pure (.next, fr)
  | i :: is => do
      tick
      let (flow, fr) ← inst callFn fr i
      if flow == .ret then pure (.ret, fr) else block callFn fr is

/-- Runs one instruction. -/
def inst (callFn : String → List Value → Exec (Option Value)) (fr : Frame) : Inst → Exec (Flow × Frame)
  | .bin d op l r => do
      let a ← fr.eval l
      let b ← fr.eval r
      let v ← binary fr.func.name op a b
      pure (.next, fr.bind d v)
  | .load d ty p off _ => do
      let q := (← fr.pointer p).add off
      let v ← loadValue fr.func.name ty q
      pure (.next, fr.bind d v)
  | .store ty p off v => do
      let q := (← fr.pointer p).add off
      let x ← fr.eval v
      storeValue fr.func.name ty q x
      pure (.next, fr)
  | .alloca d sp size _ => do
      let n ← fr.int size
      let q ← alloc sp n
      pure (.next, fr.bind d (.ptr q))
  | .memcpy dst src off len => do
      let d ← fr.pointer dst
      let s := (← fr.pointer src).add off
      let data ← readBytes s len
      writeBytes d data
      pure (.next, fr)
  | .call d c args => do
      let vs ← args.mapM fr.eval
      let r ← callFn c vs
      match d with
      | some reg => pure (.next, fr.bind reg (r.getD (.int 0)))
      | none => pure (.next, fr)
  | .barrier => do
      record .barrier
      pure (.next, fr)
  | .printf fmt args buf => do
      let vs ← args.mapM fr.eval
      match buf with
      | some (b, p, c) =>
          let bp ← fr.pointer b
          let pp ← fr.pointer p
          let cap ← fr.int c
          appendOutput bp pp cap vs
      | none => pure ()
      record (.printf fmt vs)
      pure (.next, fr)
  | .placeholder d _ => stop (.undefinedRegister fr.func.name d)
  | .loop v bound body => do
      let n ← fr.int bound
      if body.isEmpty then
        pure (.next, if n == 0 then fr else fr.bind v (.int (n - 1)))
      else iterate (fun fr i => block callFn (fr.bind v (.int i)) body) fr 0 n
  | .ret => pure (.ret, fr)
end

/-- Calls a function by name. `fuel` bounds the nesting of calls and is
never the limit that stops a run: the call depth limit comes first. -/
def call : Nat → String → List Value → Exec (Option Value)
  | fuel, name, args => do
    record (.call name args)
    let m ← get
    match m.module.get? name with
    | none => stop (.unknownFunction name)
    | some f =>
      if f.params.length != args.length then stop (.arity name f.params.length args.length)
      match f.body with
      | none => pure (some (← external name args))
      | some body =>
        if m.depth ≥ maxCallDepth then stop (.callDepth maxCallDepth)
        match fuel with
        | 0 => stop (.callDepth maxCallDepth)
        | fuel + 1 =>
          modify fun m => { m with depth := m.depth + 1 }
          let r ← attempt (block (call fuel) { func := f, args } body)
          modify fun m => { m with depth := m.depth - 1 }
          match r with
          | .ok _ => pure none
          | .error e => throw e

end Machine

end KernelLaunch
