import KernelLaunch.Ir.Ty
import KernelLaunch.Fault
/-!
# Kernel IR

Modules of functions with typed parameters and structured bodies: loops carry
their bodies, there is no flat control-flow graph. Registers are numbered and
defined once per function. Implicit per-invocation values (the local id, the
group id, …) appear as handle operands until the privatizer replaces them
with explicit values.

Besides the syntax this module holds the views the passes are built on: the
pre-order list of all instructions of a body (loop bodies included), the
registers it defines, the functions it calls and the handles it reads.
-/

namespace KernelLaunch

/-- Three extents or indices, one per work-item dimension. -/
structure Dims3 where
  x : Nat
  y : Nat
  z : Nat
  deriving Repr, BEq, DecidableEq, Inhabited

namespace Dims3

/-- The entry for dimension `d`; dimensions past the third have none. -/
def get? (v : Dims3) (d : Nat) : Option Nat :=
  match d with
  | 0 => some v.x
  | 1 => some v.y
  | 2 => some v.z
  | _ => none

/-- The entry for dimension `d`, or `dflt` past the third. -/
def getD (v : Dims3) (d : Nat) (dflt : Nat) : Nat := (v.get? d).getD dflt

/-- The entries as a list. -/
def toList (v : Dims3) : List Nat := [v.x, v.y, v.z]

/-- The same value in every dimension. -/
def uniform (n : Nat) : Dims3 := ⟨n, n, n⟩

/-- The vector with dimension `d` replaced. -/
def set (v : Dims3) (d : Nat) (n : Nat) : Dims3 :=
  match d with
  | 0 => { v with x := n }
  | 1 => { v with y := n }
  | 2 => { v with z := n }
  | _ => v

end Dims3

/-- The implicit per-invocation values a kernel may read without receiving them. -/
inductive Handle where
  | localId
  | groupId
  | localSize
  | numGroups
  | globalOffset
  | workDim
  | printfBuffer
  | printfBufferPosition
  | printfBufferCapacity
  deriving Repr, BEq, DecidableEq, Inhabited

namespace Handle

/-- Every handle, in declaration order. -/
def all : List Handle :=
  [.localId, .groupId, .localSize, .numGroups, .globalOffset, .workDim,
    .printfBuffer, .printfBufferPosition, .printfBufferCapacity]

/-- The position of a handle in declaration order. -/
def index : Handle → Nat
  | .localId => 0
  | .groupId => 1
  | .localSize => 2
  | .numGroups => 3
  | .globalOffset => 4
  | .workDim => 5
  | .printfBuffer => 6
  | .printfBufferPosition => 7
  | .printfBufferCapacity => 8

/-- The tag of a handle in data: `local_id`, `group_id`, …. -/
def tag : Handle → String
  | .localId => "local_id"
  | .groupId => "group_id"
  | .localSize => "local_size"
  | .numGroups => "num_groups"
  | .globalOffset => "global_offset"
  | .workDim => "work_dim"
  | .printfBuffer => "printf_buffer"
  | .printfBufferPosition => "printf_buffer_position"
  | .printfBufferCapacity => "printf_buffer_capacity"

/-- The symbol of the implicit global: the tag after an underscore. -/
def symbol (h : Handle) : String := "_" ++ h.tag

/-- Whether the handle is indexed by a work-item dimension. -/
def isDimensional : Handle → Bool
  | .localId | .groupId | .localSize | .numGroups | .globalOffset => true
  | _ => false

/-- Whether the handle belongs to the output buffer. -/
def isOutput : Handle → Bool
  | .printfBuffer | .printfBufferPosition | .printfBufferCapacity => true
  | _ => false

/-- Inserts a handle into a list kept in declaration order without repeats. -/
def insertSorted (h : Handle) : List Handle → List Handle
  | [] => [h]
  | g :: gs =>
      if h.index < g.index then h :: g :: gs
      else if h.index = g.index then g :: gs
      else g :: insertSorted h gs

/-- A list of handles as a set: declaration order, no repeats. -/
def normalize (hs : List Handle) : List Handle := hs.foldl (fun acc h => insertSorted h acc) []

end Handle

/-- A handle at a dimension. -/
structure HandleRef where
  kind : Handle
  dim : Nat
  deriving Repr, BEq, DecidableEq, Inhabited

namespace HandleRef

/-- Order by kind, then by dimension. -/
def lt (a b : HandleRef) : Bool :=
  a.kind.index < b.kind.index || (a.kind.index == b.kind.index && a.dim < b.dim)

/-- Inserts into a sorted list without repeats. -/
def insertSorted (h : HandleRef) : List HandleRef → List HandleRef
  | [] => [h]
  | g :: gs =>
      if lt h g then h :: g :: gs
      else if h == g then g :: gs
      else g :: insertSorted h gs

end HandleRef

/-- An operand: a register, a parameter, an immediate word or a handle. -/
inductive Operand where
  | reg (r : Nat)
  | param (i : Nat)
  | imm (v : Nat)
  | handle (h : HandleRef)
  deriving Repr, BEq, DecidableEq, Inhabited

/-- A binary operation on words. -/
inductive BinOp where
  | add
  | sub
  | mul
  | udiv
  | urem
  | bitAnd
  | bitOr
  | bitXor
  | shl
  | lshr
  deriving Repr, BEq, DecidableEq, Inhabited

namespace BinOp

/-- Every operation, in declaration order. -/
def all : List BinOp := [.add, .sub, .mul, .udiv, .urem, .bitAnd, .bitOr, .bitXor, .shl, .lshr]

/-- The tag of an operation in data. -/
def tag : BinOp → String
  | .add => "add"
  | .sub => "sub"
  | .mul => "mul"
  | .udiv => "u_div"
  | .urem => "u_rem"
  | .bitAnd => "and"
  | .bitOr => "or"
  | .bitXor => "xor"
  | .shl => "shl"
  | .lshr => "l_shr"

/-- The mnemonic of an operation in text. -/
def mnemonic : BinOp → String
  | .udiv => "udiv"
  | .urem => "urem"
  | .lshr => "lshr"
  | op => op.tag

end BinOp

/-- A half-open range `[lo, hi)` known to hold a loaded value. -/
structure ValueRange where
  lo : Nat
  hi : Nat
  deriving Repr, BEq, DecidableEq, Inhabited

/-- An instruction. -/
inductive Inst where
  | bin (dst : Nat) (op : BinOp) (lhs rhs : Operand)
  | load (dst : Nat) (ty : Ty) (ptr : Operand) (offset : Nat) (range : Option ValueRange)
  | store (ty : Ty) (ptr : Operand) (offset : Nat) (value : Operand)
  | alloca (dst : Nat) (space : Nat) (size : Operand) (align : Nat)
  | memcpy (dst src : Operand) (srcOffset len : Nat)
  | call (dst : Option Nat) (callee : String) (args : List Operand)
  | barrier
  | printf (format : String) (args : List Operand) (buffer : Option (Operand × Operand × Operand))
  | placeholder (dst : Nat) (name : String)
  | loop (var : Nat) (bound : Operand) (body : List Inst)
  | ret
  deriving Repr, Inhabited

namespace Inst

/-- The register an instruction defines; a loop defines its variable. -/
def def? : Inst → Option Nat
  | .bin d .. | .load d .. | .alloca d .. | .placeholder d _ => some d
  | .call d .. => d
  | .loop v .. => some v
  | _ => none

/-- The operands an instruction reads itself, not those of nested bodies. -/
def operands : Inst → List Operand
  | .bin _ _ l r => [l, r]
  | .load _ _ p _ _ => [p]
  | .store _ p _ v => [p, v]
  | .alloca _ _ s _ => [s]
  | .memcpy d s _ _ => [d, s]
  | .call _ _ args => args
  | .printf _ args none => args
  | .printf _ args (some (a, b, c)) => args ++ [a, b, c]
  | .loop _ b _ => [b]
  | _ => []

/-- Replaces the operands an instruction reads itself. -/
def mapOperands (f : Operand → Operand) : Inst → Inst
  | .bin d op l r => .bin d op (f l) (f r)
  | .load d t p o r => .load d t (f p) o r
  | .store t p o v => .store t (f p) o (f v)
  | .alloca d sp s a => .alloca d sp (f s) a
  | .memcpy d s o n => .memcpy (f d) (f s) o n
  | .call d c args => .call d c (args.map f)
  | .printf fmt args buf => .printf fmt (args.map f) (buf.map fun (a, b, c) => (f a, f b, f c))
  | .loop v b body => .loop v (f b) body
  | i => i

mutual
/-- The instruction followed by the instructions of its body, in pre-order. -/
def preorder : Inst → List Inst
  | i@(.loop _ _ body) => i :: preorderList body
  | i => [i]

/-- The pre-order list of a body. -/
def preorderList : List Inst → List Inst
  | [] => []
  | i :: is => preorder i ++ preorderList is
end

mutual
/-- Rewrites an instruction by `f`; a loop's header is rewritten (seen by `f`
with an empty body) and its body rewritten in turn, keeping only the
instructions that pass `keep`. -/
def rewrite (f : Inst → Inst) (keep : Inst → Bool) : Inst → Inst
  | .loop v b body =>
      match f (.loop v b []) with
      | .loop v' b' _ => .loop v' b' (rewriteList f keep body)
      | j => j
  | i => f i

/-- Rewrites each instruction of a body that passes `keep` and drops the others. -/
def rewriteList (f : Inst → Inst) (keep : Inst → Bool) : List Inst → List Inst
  | [] => []
  | i :: is => if keep i then rewrite f keep i :: rewriteList f keep is else rewriteList f keep is
end

end Inst

/-- A parameter: its name, its type, and whether an aggregate is passed by value. -/
structure Param where
  name : String
  ty : Ty
  byValue : Bool := false
  deriving Repr, Inhabited

/-- The kinds of launcher the pass emits. -/
inductive LauncherKind where
  | default
  | fast
  | argBuffer
  | grid
  deriving Repr, BEq, DecidableEq, Inhabited

namespace LauncherKind

/-- Every kind, in declaration order. -/
def all : List LauncherKind := [.default, .fast, .argBuffer, .grid]

/-- The tag in data. -/
def tag : LauncherKind → String
  | .default => "default"
  | .fast => "fast"
  | .argBuffer => "arg_buffer"
  | .grid => "grid"

/-- The name in text. -/
def label : LauncherKind → String
  | .argBuffer => "argbuffer"
  | k => k.tag

/-- The launcher's symbol for a kernel. -/
def symbol (k : LauncherKind) (kernel : String) : String :=
  match k with
  | .default => "_wl_" ++ kernel ++ "_workgroup"
  | .fast => "_wl_" ++ kernel ++ "_workgroup_fast"
  | .argBuffer => "_wl_" ++ kernel ++ "_workgroup_argbuffer"
  | .grid => "_wl_" ++ kernel ++ "_grid"

end LauncherKind

/-- Function attributes. -/
structure FnAttrs where
  /-- A kernel entry point. -/
  kernel : Bool := false
  /-- The body already runs a whole work-group. -/
  workgroupBody : Bool := false
  reqdSubgroupSize : Option Nat := none
  reqdWorkGroupSize : Option Dims3 := none
  /-- Set on generated launchers. -/
  launcher : Option LauncherKind := none
  /-- The subgroup size a launcher was built for. -/
  subgroupSize : Option Nat := none
  /-- The kernel or helper this function was generated from. -/
  derivedFrom : Option String := none
  deriving Repr, Inhabited

/-- A function: a declaration when it has no body. -/
structure Function where
  name : String
  params : List Param := []
  body : Option (List Inst) := none
  attrs : FnAttrs := {}
  deriving Repr, Inhabited

namespace Function

/-- Whether the function is only declared. -/
def isDeclaration (f : Function) : Bool := f.body.isNone

/-- The instructions of the body, none for a declaration. -/
def insts (f : Function) : List Inst := f.body.getD []

/-- All instructions, loop bodies included, in pre-order. -/
def allInsts (f : Function) : List Inst := Inst.preorderList f.insts

/-- One past the highest register the body defines. Registers are 32-bit
words, so a register numbered at the top of the range has no number past it:
that is a fault. -/
def regCount? (f : Function) : Except Fault Nat :=
  f.allInsts.foldlM (fun n i => match i.def? with
    | some r => if r + 1 > Word.max32 then throw .addOverflow else pure (Nat.max n (r + 1))
    | none => pure n) 0

/-- Inserts a name into a sorted list without repeats. -/
def insertName (s : String) : List String → List String
  | [] => [s]
  | t :: ts => if s < t then s :: t :: ts else if s = t then t :: ts else t :: insertName s ts

/-- The names of the functions the body calls, sorted, without repeats. -/
def callees (f : Function) : List String :=
  f.allInsts.foldl (fun acc i => match i with | .call _ c _ => insertName c acc | _ => acc) []

/-- The handles the body reads, sorted by kind and dimension, without repeats. -/
def handleRefs (f : Function) : List HandleRef :=
  f.allInsts.foldl (fun acc i => i.operands.foldl (fun acc o =>
    match o with | .handle h => HandleRef.insertSorted h acc | _ => acc) acc) []

/-- Whether the body holds an instruction with the property. -/
def contains (f : Function) (p : Inst → Bool) : Bool := f.allInsts.any p

end Function

/-- The runtime function that answers an invocation's local id on hardware
that runs one invocation per work-item. -/
def localIdIntrinsic : String := "__wl_local_id"

/-- A module: named functions and the declared implicit globals. -/
structure Module where
  name : String
  functions : List Function := []
  /-- Declared handles, in declaration order without repeats. -/
  handles : List Handle := []
  deriving Repr, Inhabited

namespace Module

/-- The first function of the name. -/
def get? (m : Module) (name : String) : Option Function := m.functions.find? (·.name == name)

/-- Whether a function of the name exists. -/
def contains (m : Module) (name : String) : Bool := (m.get? name).isSome

end Module

end KernelLaunch
