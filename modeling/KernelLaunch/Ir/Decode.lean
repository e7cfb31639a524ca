import KernelLaunch.Ir.Syntax
import KernelLaunch.Json.Reader
/-!
# Reading IR data

Decoders for the data form of modules (see `KernelLaunch.Ir.Encode`). Fields
that have defaults may be left out: offsets default to zero, lists to empty,
optional fields to absent, flags to false, and every attribute may be left
out. A record may also be given as an array of its fields in declaration
order. Unknown fields are skipped.

Types and instructions nest; their decoders take a nesting allowance that the
reader's own limit always exhausts first.
-/

namespace KernelLaunch

namespace Decode

open Reader

/-- A required field's value, or the error naming it. -/
def need {α : Type} (v : Option α) (name : String) : Except Problem α :=
  match v with
  | some a => .ok a
  | none => .error (.missingField name)

/-- The error of an array form that ends before a required field. -/
def short {σ : Type} (i : Nat) : Except Problem σ := .error (.invalidLength i "")

/-- Type tags. -/
def tyTags : List String := ["i8", "i16", "i32", "i64", "f16", "f32", "f64", "ptr", "array", "struct"]

/-- A type. -/
def ty : Nat → Decoder Ty
  | 0 => failPeek .recursionLimit
  | fuel + 1 => variant tyTags fun i acc =>
      match i with
      | 0 => unitVariant .i8 acc
      | 1 => unitVariant .i16 acc
      | 2 => unitVariant .i32 acc
      | 3 => unitVariant .i64 acc
      | 4 => unitVariant .f16 acc
      | 5 => unitVariant .f32 acc
      | 6 => unitVariant .f64 acc
      | 7 => newtypeVariant word32 .ptr acc
      | 8 =>
          let expecting := "tuple variant Type::Array"
          tupleVariant expecting (do
            if ← hasElement true then
              let e ← ty fuel
              if ← hasElement false then
                let n ← word
                pure (Ty.array e n)
              else reject (.invalidLength 1 (expecting ++ " with 2 elements"))
            else reject (.invalidLength 0 (expecting ++ " with 2 elements"))) acc
      | _ => newtypeVariant (list (ty fuel)) .struct acc

/-- The nesting allowance given to recursive decoders. -/
def allowance : Nat := 130

/-- A handle kind. -/
def handle : Decoder Handle :=
  variant (Handle.all.map Handle.tag) fun i acc => unitVariant (Handle.all.getD i .localId) acc

/-- Fields of a handle reference read so far. -/
structure HandleRefFields where
  kind : Option Handle := none
  dim : Option Nat := none

/-- A handle reference; the dimension defaults to zero. -/
def handleRef : Decoder HandleRef := record {
  expecting := "struct HandleRef"
  names := ["kind", "dim"]
  init := ({} : HandleRefFields)
  isSet := fun i s => if i == 0 then s.kind.isSome else s.dim.isSome
  read := fun i s => if i == 0 then do pure { s with kind := some (← handle) }
    else do pure { s with dim := some (← word32) }
  absent := fun i s => if i == 0 then short i else .ok s
  finish := fun s => do
    let kind ← need s.kind "kind"
    pure { kind, dim := s.dim.getD 0 } }

/-- An operand. -/
def operand : Decoder Operand :=
  variant ["reg", "param", "imm", "handle"] fun i acc =>
    match i with
    | 0 => newtypeVariant word32 .reg acc
    | 1 => newtypeVariant word32 .param acc
    | 2 => newtypeVariant word .imm acc
    | _ => newtypeVariant handleRef .handle acc

/-- A binary operation. -/
def binOp : Decoder BinOp :=
  variant (BinOp.all.map BinOp.tag) fun i acc => unitVariant (BinOp.all.getD i .add) acc

/-- Fields of a value range read so far. -/
structure RangeFields where
  lo : Option Nat := none
  hi : Option Nat := none

/-- A value range. -/
def valueRange : Decoder ValueRange := record {
  expecting := "struct ValueRange"
  names := ["lo", "hi"]
  init := ({} : RangeFields)
  isSet := fun i s => if i == 0 then s.lo.isSome else s.hi.isSome
  read := fun i s => if i == 0 then do pure { s with lo := some (← word) }
    else do pure { s with hi := some (← word) }
  absent := fun i _ => short i
  finish := fun s => do pure { lo := ← need s.lo "lo", hi := ← need s.hi "hi" } }

/-- Fields of an instruction read so far, for every variant at once. -/
structure InstFields where
  dst : Option Nat := none
  op : Option BinOp := none
  lhs : Option Operand := none
  rhs : Option Operand := none
  ty : Option Ty := none
  ptr : Option Operand := none
  offset : Option Nat := none
  range : Option (Option ValueRange) := none
  value : Option Operand := none
  space : Option Nat := none
  size : Option Operand := none
  align : Option Nat := none
  dstOp : Option Operand := none
  src : Option Operand := none
  len : Option Nat := none
  callDst : Option (Option Nat) := none
  callee : Option String := none
  args : Option (List Operand) := none
  format : Option String := none
  buffer : Option (Option (Operand × Operand × Operand)) := none
  name : Option String := none
  var : Option Nat := none
  bound : Option Operand := none
  body : Option (List Inst) := none

/-- A field of an instruction: its name, whether it was read, how to read it,
and its default when it has one. -/
structure InstField where
  name : String
  isSet : InstFields → Bool
  read : InstFields → Decoder InstFields
  dflt : Option (InstFields → InstFields)

/-- An instruction variant read as a record of the given fields. -/
def instRecord (expecting : String) (fields : List InstField)
    (build : InstFields → Except Problem Inst) : Record InstFields Inst where
  expecting := expecting
  names := fields.map (·.name)
  init := {}
  isSet := fun i s => match fields[i]? with | some f => f.isSet s | none => false
  read := fun i s => match fields[i]? with | some f => f.read s | none => pure s
  absent := fun i s =>
    match fields[i]? with
    | some f => match f.dflt with | some d => .ok (d s) | none => short i
    | none => .ok s
  finish := fun s => do
    let s ← fields.foldlM (fun s f =>
      if f.isSet s then .ok s
      else match f.dflt with
        | some d => .ok (d s)
        | none => .error (.missingField f.name)) s
    build s

/-- An instruction field without a default. -/
def reqField (name : String) (isSet : InstFields → Bool) (read : InstFields → Decoder InstFields) :
    InstField := ⟨name, isSet, read, none⟩

/-- An instruction field with a default. -/
def optField (name : String) (isSet : InstFields → Bool) (read : InstFields → Decoder InstFields)
    (d : InstFields → InstFields) : InstField := ⟨name, isSet, read, some d⟩

/-- The value of a field known to be set by `finish`. -/
def got {α : Type} [Inhabited α] (v : Option α) : Except Problem α := .ok (v.getD default)

/-- The `dst` field: a register. -/
def dstField : InstField := reqField "dst" (·.dst.isSome) fun s => do pure { s with dst := some (← word32) }

/-- The `ptr` field. -/
def ptrField : InstField := reqField "ptr" (·.ptr.isSome) fun s => do pure { s with ptr := some (← operand) }

/-- The `offset` field, zero by default. -/
def offsetField : InstField :=
  optField "offset" (·.offset.isSome) (fun s => do pure { s with offset := some (← word) })
    (fun s => { s with offset := some 0 })

/-- The `args` field, empty by default. -/
def argsField : InstField :=
  optField "args" (·.args.isSome) (fun s => do pure { s with args := some (← list operand) })
    (fun s => { s with args := some [] })

/-- The `ty` field. -/
def tyField : InstField := reqField "ty" (·.ty.isSome) fun s => do pure { s with ty := some (← ty allowance) }

/-- Instruction tags. -/
def instTags : List String :=
  ["bin", "load", "store", "alloca", "memcpy", "call", "barrier", "printf", "placeholder", "loop", "return"]

/-- An instruction. -/
def inst : Nat → Decoder Inst
  | 0 => failPeek .recursionLimit
  | fuel + 1 => variant instTags fun i acc =>
      match i with
      | 0 => recordVariant (instRecord "struct variant Inst::Bin"
          [dstField,
           reqField "op" (·.op.isSome) (fun s => do pure { s with op := some (← binOp) }),
           reqField "lhs" (·.lhs.isSome) (fun s => do pure { s with lhs := some (← operand) }),
           reqField "rhs" (·.rhs.isSome) (fun s => do pure { s with rhs := some (← operand) })]
          fun s => do pure (.bin (← got s.dst) (← got s.op) (← got s.lhs) (← got s.rhs))) acc
      | 1 => recordVariant (instRecord "struct variant Inst::Load"
          [dstField, tyField, ptrField, offsetField,
           optField "range" (·.range.isSome)
             (fun s => do pure { s with range := some (← optional valueRange) })
             (fun s => { s with range := some none })]
          fun s => do
            pure (.load (← got s.dst) (← got s.ty) (← got s.ptr) (← got s.offset) (s.range.getD none))) acc
      | 2 => recordVariant (instRecord "struct variant Inst::Store"
          [tyField, ptrField, offsetField,
           reqField "value" (·.value.isSome) (fun s => do pure { s with value := some (← operand) })]
          fun s => do pure (.store (← got s.ty) (← got s.ptr) (← got s.offset) (← got s.value))) acc
      | 3 => recordVariant (instRecord "struct variant Inst::Alloca"
          [dstField,
           reqField "space" (·.space.isSome) (fun s => do pure { s with space := some (← word32) }),
           reqField "size" (·.size.isSome) (fun s => do pure { s with size := some (← operand) }),
           reqField "align" (·.align.isSome) (fun s => do pure { s with align := some (← word) })]
          fun s => do pure (.alloca (← got s.dst) (← got s.space) (← got s.size) (← got s.align))) acc
      | 4 => recordVariant (instRecord "struct variant Inst::Memcpy"
          [reqField "dst" (·.dstOp.isSome) (fun s => do pure { s with dstOp := some (← operand) }),
           reqField "src" (·.src.isSome) (fun s => do pure { s with src := some (← operand) }),
           optField "src_offset" (·.offset.isSome) (fun s => do pure { s with offset := some (← word) })
             (fun s => { s with offset := some 0 }),
           reqField "len" (·.len.isSome) (fun s => do pure { s with len := some (← word) })]
          fun s => do pure (.memcpy (← got s.dstOp) (← got s.src) (← got s.offset) (← got s.len))) acc
      | 5 => recordVariant (instRecord "struct variant Inst::Call"
          [optField "dst" (·.callDst.isSome)
             (fun s => do pure { s with callDst := some (← optional word32) })
             (fun s => { s with callDst := some none }),
           reqField "callee" (·.callee.isSome) (fun s => do pure { s with callee := some (← string) }),
           argsField]
          fun s => do pure (.call (s.callDst.getD none) (← got s.callee) (← got s.args))) acc
      | 6 => unitVariant .barrier acc
      | 7 => recordVariant (instRecord "struct variant Inst::Printf"
          [reqField "format" (·.format.isSome) (fun s => do pure { s with format := some (← string) }),
           argsField,
           optField "buffer" (·.buffer.isSome)
             (fun s => do pure { s with buffer := some (← optional (triple operand)) })
             (fun s => { s with buffer := some none })]
          fun s => do pure (.printf (← got s.format) (← got s.args) (s.buffer.getD none))) acc
      | 8 => recordVariant (instRecord "struct variant Inst::Placeholder"
          [dstField,
           reqField "name" (·.name.isSome) (fun s => do pure { s with name := some (← string) })]
          fun s => do pure (.placeholder (← got s.dst) (← got s.name))) acc
      | 9 => recordVariant (instRecord "struct variant Inst::Loop"
          [reqField "var" (·.var.isSome) (fun s => do pure { s with var := some (← word32) }),
           reqField "bound" (·.bound.isSome) (fun s => do pure { s with bound := some (← operand) }),
           reqField "body" (·.body.isSome) (fun s => do pure { s with body := some (← list (inst fuel)) })]
          fun s => do pure (.loop (← got s.var) (← got s.bound) (s.body.getD []))) acc
      | _ => unitVariant .ret acc

/-- A body. -/
def body : Decoder (List Inst) := list (inst allowance)

/-- Fields of a parameter read so far. -/
structure ParamFields where
  name : Option String := none
  ty : Option Ty := none
  byValue : Option Bool := none

/-- A parameter; `by_value` defaults to false. -/
def param : Decoder Param := record {
  expecting := "struct Param"
  names := ["name", "ty", "by_value"]
  init := ({} : ParamFields)
  isSet := fun i s => match i with | 0 => s.name.isSome | 1 => s.ty.isSome | _ => s.byValue.isSome
  read := fun i s => match i with
    | 0 => do pure { s with name := some (← string) }
    | 1 => do pure { s with ty := some (← ty allowance) }
    | _ => do pure { s with byValue := some (← bool) }
  absent := fun i s => if i < 2 then short i else .ok s
  finish := fun s => do
    let name ← need s.name "name"
    let t ← need s.ty "ty"
    pure { name, ty := t, byValue := s.byValue.getD false } }

/-- A launcher kind. -/
def launcherKind : Decoder LauncherKind :=
  variant (LauncherKind.all.map LauncherKind.tag) fun i acc =>
    unitVariant (LauncherKind.all.getD i .default) acc

/-- Three words. -/
def dims3 : Decoder Dims3 := do
  let (x, y, z) ← triple word
  pure ⟨x, y, z⟩

/-- Fields of function attributes read so far. -/
structure AttrFields where
  kernel : Option Bool := none
  workgroupBody : Option Bool := none
  reqdSubgroupSize : Option (Option Nat) := none
  reqdWorkGroupSize : Option (Option Dims3) := none
  launcher : Option (Option LauncherKind) := none
  subgroupSize : Option (Option Nat) := none
  derivedFrom : Option (Option String) := none

/-- Function attributes; every field may be left out. -/
def fnAttrs : Decoder FnAttrs := record {
  expecting := "struct FnAttrs"
  names := ["kernel", "workgroup_body", "reqd_subgroup_size", "reqd_work_group_size", "launcher",
    "subgroup_size", "derived_from"]
  init := ({} : AttrFields)
  isSet := fun i s => match i with
    | 0 => s.kernel.isSome
    | 1 => s.workgroupBody.isSome
    | 2 => s.reqdSubgroupSize.isSome
    | 3 => s.reqdWorkGroupSize.isSome
    | 4 => s.launcher.isSome
    | 5 => s.subgroupSize.isSome
    | _ => s.derivedFrom.isSome
  read := fun i s => match i with
    | 0 => do pure { s with kernel := some (← bool) }
    | 1 => do pure { s with workgroupBody := some (← bool) }
    | 2 => do pure { s with reqdSubgroupSize := some (← optional word32) }
    | 3 => do pure { s with reqdWorkGroupSize := some (← optional dims3) }
    | 4 => do pure { s with launcher := some (← optional launcherKind) }
    | 5 => do pure { s with subgroupSize := some (← optional word32) }
    | _ => do pure { s with derivedFrom := some (← optional string) }
  absent := fun _ s => .ok s
  finish := fun s => .ok {
    kernel := s.kernel.getD false
    workgroupBody := s.workgroupBody.getD false
    reqdSubgroupSize := s.reqdSubgroupSize.getD none
    reqdWorkGroupSize := s.reqdWorkGroupSize.getD none
    launcher := s.launcher.getD none
    subgroupSize := s.subgroupSize.getD none
    derivedFrom := s.derivedFrom.getD none } }

/-- Fields of a function read so far. -/
structure FunctionFields where
  name : Option String := none
  params : Option (List Param) := none
  body : Option (Option (List Inst)) := none
  attrs : Option FnAttrs := none

/-- A function; parameters, body and attributes may be left out. -/
def function : Decoder Function := record {
  expecting := "struct Function"
  names := ["name", "params", "body", "attrs"]
  init := ({} : FunctionFields)
  isSet := fun i s => match i with
    | 0 => s.name.isSome
    | 1 => s.params.isSome
    | 2 => s.body.isSome
    | _ => s.attrs.isSome
  read := fun i s => match i with
    | 0 => do pure { s with name := some (← string) }
    | 1 => do pure { s with params := some (← list param) }
    | 2 => do pure { s with body := some (← optional body) }
    | _ => do pure { s with attrs := some (← fnAttrs) }
  absent := fun i s => if i == 0 then short i else .ok s
  finish := fun s => do
    let name ← need s.name "name"
    pure { name, params := s.params.getD [], body := s.body.getD none, attrs := s.attrs.getD {} } }

/-- Fields of a module read so far. -/
structure ModuleFields where
  name : Option String := none
  functions : Option (List Function) := none
  handles : Option (List Handle) := none

/-- A module; functions and handles may be left out, and handles form a set. -/
def module : Decoder Module := record {
  expecting := "struct Module"
  names := ["name", "functions", "handles"]
  init := ({} : ModuleFields)
  isSet := fun i s => match i with
    | 0 => s.name.isSome
    | 1 => s.functions.isSome
    | _ => s.handles.isSome
  read := fun i s => match i with
    | 0 => do pure { s with name := some (← string) }
    | 1 => do pure { s with functions := some (← list function) }
    | _ => do pure { s with handles := some (Handle.normalize (← list handle)) }
  absent := fun i s => if i == 0 then short i else .ok s
  finish := fun s => do
    let name ← need s.name "name"
    pure { name, functions := s.functions.getD [], handles := s.handles.getD [] } }

end Decode

end KernelLaunch
