import KernelLaunch.Device.Config
import KernelLaunch.Ir.Builder
import KernelLaunch.Bytes
/-!
# The execution context record

Launchers and bodies receive the values of a work-group launch through a
record passed by pointer: the work dimension, the number of groups, the
global offset, the local size and the group id (one element per dimension),
and the output buffer with its position and capacity. Field widths depend on
the device (`size_t` and pointer width), so the layout is computed from the
device: each field at the next multiple of its alignment, the record's size
rounded up to its largest alignment.

Main statement: every field element lies within the record.
-/

namespace KernelLaunch

/-- A field of the context record, in record order. -/
inductive ContextField where
  | workDim
  | numGroups
  | globalOffset
  | localSize
  | groupId
  | printfBuffer
  | printfBufferPosition
  | printfBufferCapacity
  deriving Repr, BEq, DecidableEq, Inhabited

namespace ContextField

/-- Every field in record order. -/
def all : List ContextField :=
  [.workDim, .numGroups, .globalOffset, .localSize, .groupId, .printfBuffer,
    .printfBufferPosition, .printfBufferCapacity]

/-- The position of the field in the record. -/
def index : ContextField → Nat
  | .workDim => 0
  | .numGroups => 1
  | .globalOffset => 2
  | .localSize => 3
  | .groupId => 4
  | .printfBuffer => 5
  | .printfBufferPosition => 6
  | .printfBufferCapacity => 7

/-- The field's tag in data. -/
def tag : ContextField → String
  | .workDim => "work_dim"
  | .numGroups => "num_groups"
  | .globalOffset => "global_offset"
  | .localSize => "local_size"
  | .groupId => "group_id"
  | .printfBuffer => "printf_buffer"
  | .printfBufferPosition => "printf_buffer_position"
  | .printfBufferCapacity => "printf_buffer_capacity"

/-- Every element of the record, in the order they are written: the work dimension, the
per-dimension fields one dimension at a time, then the output buffer's three. -/
def elements : List (ContextField × Nat) :=
  [(.workDim, 0)] ++ ((List.range 3).flatMap fun d =>
    [(.numGroups, d), (.globalOffset, d), (.localSize, d), (.groupId, d)]) ++
  [(.printfBuffer, 0), (.printfBufferPosition, 0), (.printfBufferCapacity, 0)]

/-- The field backing a handle. The local id has none: it is the work-item
loop's variable. -/
def ofHandle? : Handle → Option ContextField
  | .localId => none
  | .groupId => some .groupId
  | .localSize => some .localSize
  | .numGroups => some .numGroups
  | .globalOffset => some .globalOffset
  | .workDim => some .workDim
  | .printfBuffer => some .printfBuffer
  | .printfBufferPosition => some .printfBufferPosition
  | .printfBufferCapacity => some .printfBufferCapacity

/-- The number of elements: three for the per-dimension fields. -/
def len : ContextField → Nat
  | .numGroups | .globalOffset | .localSize | .groupId => 3
  | _ => 1

/-- The element type on a device. -/
def ty (c : DeviceConfig) : ContextField → Ty
  | .workDim | .printfBufferCapacity => .i32
  | .printfBuffer | .printfBufferPosition => c.globalPtr
  | _ => c.sizeT

/-- The statically known range of an element. The local size is at most the
device's limit for the dimension (one past the third dimension); group ids
are below the grid width, group counts at most that width, and the work
dimension at most the device's count. An end that leaves the word range is
a fault. -/
def range (c : DeviceConfig) (f : ContextField) (dim : Nat) : Except Fault (Option ValueRange) :=
  let upTo (n : Nat) : Except Fault (Option ValueRange) :=
    if n + 1 > Word.max then .error .addOverflow else .ok (some ⟨1, n + 1⟩)
  match f with
  | .localSize => upTo (c.maxWorkItemSizes.getD dim 1)
  | .groupId => .ok (some ⟨0, c.maxGridDimWidth⟩)
  | .numGroups => upTo c.maxGridDimWidth
  | .workDim => upTo c.maxWorkItemDims
  | _ => .ok none

end ContextField

/-- The byte layout of the context record on a device. -/
structure ContextLayout where
  offsets : List Nat
  types : List Ty
  size : Nat
  align : Nat
  ptrBytes : Nat
  deriving Inhabited

namespace ContextLayout

/-- The layout on a device. -/
def ofDevice (c : DeviceConfig) : ContextLayout :=
  let p := c.ptrBytes
  let types := ContextField.all.map (ContextField.ty c)
  let step (acc : List Nat × Nat × Nat) (ft : ContextField × Ty) : List Nat × Nat × Nat :=
    let (offs, offset, maxAlign) := acc
    let (f, t) := ft
    let a := t.align p
    let start := Word.alignTo offset a
    (offs ++ [start], start + t.size p * f.len, Nat.max maxAlign a)
  let (offs, stop, maxAlign) := (ContextField.all.zip types).foldl step ([], 0, 1)
  { offsets := offs, types, size := Word.alignTo stop maxAlign, align := maxAlign, ptrBytes := p }

/-- The element type of a field. -/
def fieldTy (l : ContextLayout) (f : ContextField) : Ty := l.types.getD f.index .i32

/-- The byte width of a field's elements. -/
def width (l : ContextLayout) (f : ContextField) : Nat := (l.fieldTy f).size l.ptrBytes

/-- The byte offset of element `dim` of a field. -/
def offset (l : ContextLayout) (f : ContextField) (dim : Nat) : Nat :=
  l.offsets.getD f.index 0 + dim * l.width f

end ContextLayout

/-- The host-side values of a launch's context. -/
structure ContextValues where
  workDim : Nat := 0
  numGroups : Dims3 := ⟨0, 0, 0⟩
  globalOffset : Dims3 := ⟨0, 0, 0⟩
  localSize : Dims3 := ⟨0, 0, 0⟩
  groupId : Dims3 := ⟨0, 0, 0⟩
  /-- Encoded device pointer to the output buffer. -/
  printfBuffer : Nat := 0
  /-- Encoded device pointer to the output position word. -/
  printfBufferPosition : Nat := 0
  printfBufferCapacity : Nat := 0
  deriving Repr, Inhabited

namespace ContextValues

/-- A launch of `groups` work-groups of `items` items: the work dimension is
the highest dimension with more than one item or group. -/
def launch (items groups : Dims3) : ContextValues :=
  let workDim := if items.z > 1 || groups.z > 1 then 3 else if items.y > 1 || groups.y > 1 then 2 else 1
  { workDim, numGroups := groups, localSize := items }

/-- The value of a field element. -/
def get (v : ContextValues) (f : ContextField) (dim : Nat) : Nat :=
  match f with
  | .workDim => v.workDim
  | .numGroups => v.numGroups.getD dim 0
  | .globalOffset => v.globalOffset.getD dim 0
  | .localSize => v.localSize.getD dim 0
  | .groupId => v.groupId.getD dim 0
  | .printfBuffer => v.printfBuffer
  | .printfBufferPosition => v.printfBufferPosition
  | .printfBufferCapacity => v.printfBufferCapacity

end ContextValues

namespace ContextLayout

/-- The record's bytes holding the values, each truncated to its field's width. -/
def encode (l : ContextLayout) (v : ContextValues) : Except Fault ByteArray :=
  ContextField.elements.foldlM (fun buf (f, d) => Bytes.writeWord buf (l.offset f d) (l.width f) (v.get f d))
    (ByteArray.mk (Array.replicate l.size 0))

/-- One field element read back out of encoded bytes. -/
def read (l : ContextLayout) (bytes : ByteArray) (f : ContextField) (dim : Nat) : Except Fault Nat :=
  Bytes.readWord bytes (l.offset f dim) (l.width f)

end ContextLayout

/-- Emits a load of a field element from the context pointer, tagged with the
element's static range. -/
def loadFromContext (b : Builder) (c : DeviceConfig) (l : ContextLayout) (ctx : Operand)
    (f : ContextField) (dim : Nat) : Except Fault (Nat × Builder) := do
  let r ← f.range c dim
  pure (b.load (l.fieldTy f) ctx (l.offset f dim) r)

/-- Emits a store of a field element into a context record. -/
def storeToContext (b : Builder) (l : ContextLayout) (ctx : Operand) (f : ContextField) (dim : Nat)
    (value : Operand) : Builder :=
  b.store (l.fieldTy f) ctx (l.offset f dim) value

/-- Replaces the uses of mapped placeholder registers by their operands and
drops the mapped placeholders, in every nested body. -/
def replacePlaceholders (insts : List Inst) (map : List (Nat × Operand)) : List Inst :=
  let lookup (r : Nat) : Option Operand := (map.find? (·.1 == r)).map (·.2)
  let keep : Inst → Bool
    | .placeholder d _ => (lookup d).isNone
    | _ => true
  let swap (o : Operand) : Operand :=
    match o with
    | .reg r => (lookup r).getD o
    | _ => o
  Inst.rewriteList (Inst.mapOperands swap) keep insts

end KernelLaunch
