import KernelLaunch.Interp.Host
import KernelLaunch.Kernel.Pass
/-!
# Running launchers as a runtime would

The host side of a launch: it writes the context record and the argument
buffer the way a runtime would, then enters the launchers one work-group at a
time, or the grid launcher once. On hardware that runs one invocation per
work-item, every entry is repeated for each local id, x fastest.
-/

namespace KernelLaunch

namespace Machine

/-- Runs `body` for `0, 1, …, n - 1` in order, stopping at the first stop. -/
def forRange (n : Nat) (body : Nat → Exec Unit) : Exec Unit :=
  let rec go (i : Nat) : Nat → Exec Unit
    | 0 => pure ()
    | left + 1 => do body i; go (i + 1) left
  go 0 n

/-- Runs `body` for every point of a box, x fastest, then y, then z. -/
def forBox (box : Dims3) (body : Dims3 → Exec Unit) : Exec Unit :=
  forRange box.z fun z => forRange box.y fun y => forRange box.x fun x => body ⟨x, y, z⟩

end Machine

/-- What the host knows of the device and the context record's layout. -/
structure Harness where
  cfg : DeviceConfig
  context : ContextLayout

namespace Harness

open Machine

/-- The host side for a device. -/
def create (c : DeviceConfig) : Harness := { cfg := c, context := ContextLayout.ofDevice c }

/-- Allocates a context record holding the values. -/
def contextRecord (h : Harness) (v : ContextValues) : Exec Pointer := do
  let bytes ← faultOf (h.context.encode v)
  allocBytes h.cfg.addressSpaces.contextSpace bytes

/-- Allocates an output buffer of `capacity` bytes and its 4-byte write
position in global memory, and points the values at them. -/
def attachOutput (h : Harness) (v : ContextValues) (capacity : Nat) :
    Exec (ContextValues × Pointer × Pointer) := do
  let global := h.cfg.addressSpaces.globalSpace
  let buffer ← alloc global capacity
  let position ← alloc global 4
  let ptrBytes := (← get).ptrBytes
  let b ← faultOf (encodePtr ptrBytes buffer)
  let p ← faultOf (encodePtr ptrBytes position)
  pure ({ v with printfBuffer := b, printfBufferPosition := p, printfBufferCapacity := capacity }, buffer, position)

/-- Packs the values into an argument buffer laid out as given: an aggregate
slot takes the bytes its pointer points at, every other slot the value as a
word of the slot's width. -/
def argBuffer (h : Harness) (l : ArgBufferLayout) (args : List Value) : Exec Pointer := do
  if args.length != l.slots.length then stop (.arity l.kernel l.slots.length args.length)
  let bytes ← (l.slots.zip args).foldlM (fun bytes (s, arg) => do
      match s.kind, arg with
      | .byValue, .ptr src => do
          let data ← readBytes src s.size
          pure (Bytes.overwrite bytes s.offset data.toList)
      | _, .int v => faultOf (Bytes.writeWord bytes s.offset s.size v)
      | _, .ptr p => do
          let raw ← faultOf (encodePtr (← get).ptrBytes p)
          faultOf (Bytes.writeWord bytes s.offset s.size raw))
    (ByteArray.mk (Array.replicate l.size 0))
  allocBytes h.cfg.addressSpaces.argsSpace bytes

/-- The arguments of the entry launcher: the packed buffer when the set has an
argument-buffer launcher, the values themselves otherwise. -/
def entryArgs (h : Harness) (s : LauncherSet) (args : List Value) : Exec (List Value) :=
  match s.argBuffer, s.layout with
  | some _, some l => do pure [.ptr (← h.argBuffer l args)]
  | _, _ => pure args

/-- Calls a launcher with the context appended: once, or once per local id on
hardware that runs one invocation per work-item. -/
def enter (h : Harness) (launcher : String) (args : List Value) (ctx : Pointer) (items : Dims3) : Exec Unit := do
  let callArgs := args ++ [.ptr ctx]
  if !h.cfg.spmd then
    let _ ← call (maxCallDepth + 1) launcher callArgs
  else
    forBox items fun id => do
      modify fun m => { m with localId := id }
      let _ ← call (maxCallDepth + 1) launcher callArgs

/-- Runs one work-group through the entry launcher. -/
def runWorkgroup (h : Harness) (s : LauncherSet) (args : List Value) (v : ContextValues) : Exec Unit := do
  let entry ← h.entryArgs s args
  let ctx ← h.contextRecord v
  h.enter s.entry entry ctx v.localSize

/-- Runs every work-group: through the grid launcher when there is one,
otherwise one group at a time, each with its own context record. -/
def runGrid (h : Harness) (s : LauncherSet) (args : List Value) (v : ContextValues) : Exec Unit := do
  let entry ← h.entryArgs s args
  match s.grid with
  | some grid =>
      let ctx ← h.contextRecord v
      h.enter grid entry ctx v.localSize
  | none =>
      forBox v.numGroups fun g => do
        let ctx ← h.contextRecord { v with groupId := g }
        h.enter s.entry entry ctx v.localSize

end Harness

end KernelLaunch
