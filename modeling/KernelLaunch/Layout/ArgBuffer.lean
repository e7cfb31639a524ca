import KernelLaunch.Hash.Blake3
import KernelLaunch.Bytes
import KernelLaunch.Diagnostic
import KernelLaunch.Device.Config
import KernelLaunch.Ir.Syntax
/-!
# Argument buffers

Devices that enter a kernel through one packed buffer need host code and
launcher to agree on where each argument lives. The layout depends only on
the kernel's signature and the device: parameters keep their order, each slot
starts at the end of the previous one rounded up to its alignment, and the
buffer's size is the end of the last slot rounded up to the largest
alignment. All offsets are 64-bit words; a layout that would not fit is an
error, never a wrapped value.

A layout carries a fingerprint of everything it was computed from, so that a
recorded layout can tell a changed signature from a changed rule.
-/

namespace KernelLaunch

/-- How the launcher reads a slot. -/
inductive SlotKind where
  /-- A scalar passed as is. -/
  | scalar
  /-- A pointer into global, constant or private memory. -/
  | pointer
  /-- An aggregate stored inline, which the launcher copies to private memory. -/
  | byValue
  /-- A pointer into work-group local memory; when the launcher allocates the
  memory, the slot holds the buffer's byte size instead of a pointer. -/
  | localMemory (launcherAllocates : Bool)
  deriving DecidableEq, Repr, Inhabited

namespace SlotKind

/-- The word a layout listing shows for the kind. -/
def label : SlotKind → String
  | .scalar => "scalar"
  | .pointer => "pointer"
  | .byValue => "byval"
  | .localMemory true => "local (size)"
  | .localMemory false => "local (pointer)"

/-- Whether the slot points into local memory. -/
def isLocal : SlotKind → Bool
  | .localMemory _ => true
  | _ => false

end SlotKind

/-- One parameter's place in the buffer. -/
structure ArgSlot where
  index : Nat
  offset : Nat
  size : Nat
  align : Nat
  kind : SlotKind
  deriving DecidableEq, Repr, Inhabited

/-- The layout of a kernel's argument buffer. -/
structure ArgBufferLayout where
  kernel : String
  slots : List ArgSlot
  size : Nat
  align : Nat
  /-- The lowercase hex digest of the signature and device the layout was
  computed from. -/
  fingerprint : String
  deriving DecidableEq, Repr, Inhabited

namespace ArgBufferLayout

/-- The bytes the fingerprint digests: a fixed tag, each parameter's type text
followed by `!` when passed by value and `;` otherwise, then six device words
in little-endian order. -/
def fingerprintInput (f : Function) (c : DeviceConfig) : ByteArray :=
  let tag := "wglaunch.argbuffer.v1".toUTF8
  let params := f.params.foldl (fun acc p =>
    acc ++ (p.ty.render ++ if p.byValue then "!" else ";").toUTF8) ByteArray.empty
  let a := c.addressSpaces
  let words := [c.addressBits, c.sizeTWidth, a.globalSpace, a.localSpace, a.constantSpace,
    if c.allocaLocals then 1 else 0]
  tag ++ params ++ ByteArray.mk (words.flatMap (fun w => Bytes.littleEndian w 4)).toArray

/-- The fingerprint of a kernel's signature on a device. -/
def fingerprintOf (f : Function) (c : DeviceConfig) : String :=
  Blake3.hexDigest (fingerprintInput f c)

/-- The error for a parameter whose slot would end past 64 bits. -/
def tooLarge (f : Function) (p : String) : Diagnostic :=
  Diagnostic.error ("parameter '" ++ p ++ "' of '" ++ f.name ++ "' is too large for an argument buffer")

/-- How a parameter is passed, or why it cannot be. -/
def kindOf (f : Function) (c : DeviceConfig) (p : Param) : Except Diagnostic SlotKind :=
  if p.byValue && p.ty.isAggregate then .ok .byValue
  else if !p.byValue then
    match p.ty with
    | .ptr s => .ok (if s == c.addressSpaces.localSpace then .localMemory c.allocaLocals else .pointer)
    | t => if t.isAggregate then refuse else .ok .scalar
  else refuse
where
  refuse : Except Diagnostic SlotKind :=
    .error (Diagnostic.error ("parameter '" ++ p.name ++ "' of '" ++ f.name ++ "' has type " ++ p.ty.render ++
      " which cannot be passed " ++ if p.byValue then "by value" else "directly"))

/-- Size and alignment of a slot. A local buffer the launcher allocates is
described by a size word as wide as the wider of `size_t` and a pointer. -/
def extentOf (f : Function) (c : DeviceConfig) (p : Param) (k : SlotKind) : Except Diagnostic (Nat × Nat) :=
  match k with
  | .localMemory true =>
      let w := max c.sizeTBytes c.ptrBytes
      .ok (w, w)
  | _ =>
      match p.ty.checkedSize c.ptrBytes with
      | some s => .ok (s, p.ty.align c.ptrBytes)
      | none => .error (tooLarge f p.name)

/-- Places the parameters from `index` on, starting at `offset`, and answers
the slots, the end offset and the largest alignment met, or the diagnostic of
the first parameter that cannot be placed. Rounding an offset up divides by the
slot's alignment, so a zero alignment stops the program. -/
def place (f : Function) (c : DeviceConfig) :
    List Param → Nat → Nat → Nat → Except Fault (Except Diagnostic (List ArgSlot × Nat × Nat))
  | [], _, offset, maxAlign => pure (.ok ([], offset, maxAlign))
  | p :: ps, index, offset, maxAlign =>
      match kindOf f c p with
      | .error d => pure (.error d)
      | .ok kind =>
        match extentOf f c p kind with
        | .error d => pure (.error d)
        | .ok (size, align) =>
          if align = 0 then throw .divideByZero
          else match Word.checkedAlignTo offset align with
            | none => pure (.error (tooLarge f p.name))
            | some start =>
              match Word.checkedAdd start size with
              | none => pure (.error (tooLarge f p.name))
              | some stop =>
                (place f c ps (index + 1) stop (max maxAlign align)).map (Except.map fun (rest, stopAll, alignAll) =>
                  ({ index, offset := start, size, align, kind } :: rest, stopAll, alignAll))

/-- Lays out the arguments of a kernel for a device. The buffer's alignment is
at least one, so its final rounding never divides by zero. -/
def compute (f : Function) (c : DeviceConfig) : Except Fault (Except Diagnostic ArgBufferLayout) :=
  (place f c f.params 0 0 1).map fun
    | .error d => .error d
    | .ok (slots, stop, align) =>
      match Word.checkedAlignTo stop align with
      | some size => .ok { kernel := f.name, slots, size, align, fingerprint := fingerprintOf f c }
      | none => .error (Diagnostic.error ("argument buffer of '" ++ f.name ++ "' does not fit in 64 bits"))

/-- The slot of a parameter. -/
def slot? (l : ArgBufferLayout) (index : Nat) : Option ArgSlot := l.slots.find? (·.index == index)

/-- Packs host argument bytes, one entry per slot and each exactly as long as
its slot, into a buffer; the gaps are zero. -/
def pack (l : ArgBufferLayout) (args : List ByteArray) : Except String ByteArray := do
  if args.length != l.slots.length then
    throw ("'" ++ l.kernel ++ "' takes " ++ toString l.slots.length ++ " arguments, got " ++ toString args.length)
  let zero := ByteArray.mk (Array.replicate l.size 0)
  (l.slots.zip args).foldlM (fun buf (s, bytes) =>
    if bytes.size != s.size then
      throw ("argument " ++ toString s.index ++ " of '" ++ l.kernel ++ "' is " ++ toString bytes.size ++
        " bytes, slot holds " ++ toString s.size)
    else pure (Bytes.overwrite buf s.offset bytes.toList)) zero

/-- The listing: a header line, then a line per slot. -/
def render (l : ArgBufferLayout) : String :=
  l.kernel ++ ": " ++ toString l.size ++ " bytes, align " ++ toString l.align ++ "\n" ++
    String.join (l.slots.map fun s => "  arg" ++ toString s.index ++ " @" ++ toString s.offset ++ " size " ++
      toString s.size ++ " align " ++ toString s.align ++ " " ++ s.kind.label ++ "\n")

end ArgBufferLayout

end KernelLaunch
