import KernelLaunch.Kernel.Body
import KernelLaunch.Layout.ArgBuffer
/-!
# Launchers

A launcher runs a kernel over a whole work-group, or a whole grid, given its
arguments and the context pointer. Every launcher has one shape:

1. its parameters: the kernel's followed by the context pointer, or an
   argument-buffer pointer and the context pointer;
2. its arguments: passed on from the parameters, or read from the buffer;
3. its iteration: loops over the local ids, one call of a body that already
   covers the work-group, one call per invocation with ids from the hardware,
   one call of another launcher, or loops over the groups of the grid;
4. a return.

A `Variant` picks each step, and the four kinds of launcher are four variants.
Work-item loops run z outermost and x innermost, and a dimension whose bound
is exactly one gets no loop.
-/

namespace KernelLaunch

/-- Alignment of the local-memory buffers a launcher allocates. -/
def localBufferAlign : Nat := 16

/-- The address space of private copies. -/
def privateAddressSpace : Nat := 0

/-- A launcher's parameters. -/
inductive Signature where
  /-- The kernel's parameters, then the context pointer. -/
  | direct
  /-- The argument-buffer pointer, then the context pointer. -/
  | buffer
  deriving DecidableEq, Repr, Inhabited

/-- Where the kernel's arguments come from. -/
inductive ArgSource where
  /-- Every parameter but the context, passed on. -/
  | forward
  /-- Read from the argument buffer laid out as given. -/
  | unpack (layout : ArgBufferLayout)
  deriving Inhabited

/-- Where work-item loops get their bounds. -/
inductive Bounds where
  | context
  | fixed (size : Dims3)
  deriving Inhabited

/-- How a launcher covers its work. -/
inductive Iteration where
  /-- Calls a work-item body for every local id. -/
  | workItems (body : String) (bounds : Bounds)
  /-- Calls a body shaped for the whole work-group once. -/
  | once (body : String)
  /-- Calls a work-item body once, with ids from the hardware. -/
  | hardware (body : String)
  /-- Calls another launcher once. -/
  | delegate (launcher : String)
  /-- Calls another launcher once per group of the grid. -/
  | groups (launcher : String)
  deriving Inhabited

/-- How a launcher of a kernel's body covers one work-group: one call of a body shaped for the
whole group, one call per invocation with the hardware's ids on a device that runs one invocation
per work-item, and loops over the local ids otherwise. -/
def Iteration.perGroup (shaped spmd : Bool) (body : String) (bounds : Bounds) : Iteration :=
  if shaped then .once body else if spmd then .hardware body else .workItems body bounds

/-- The choices that make one kind of launcher. -/
structure Variant where
  kind : LauncherKind
  signature : Signature
  args : ArgSource
  iteration : Iteration
  deriving Inhabited

/-- What every launcher of a kernel shares. -/
structure LauncherGen where
  cfg : DeviceConfig
  context : ContextLayout
  kernel : Function
  subgroupSize : Option Nat

namespace LauncherGen

/-- A load of a context field element. -/
def loadField (g : LauncherGen) (b : Builder) (ctx : Operand) (f : ContextField) (dim : Nat) :
    Except Fault (Operand × Builder) := do
  let (r, b) ← loadFromContext b g.cfg g.context ctx f dim
  pure (.reg r, b)

/-- Reads the arguments out of the buffer, one per slot: scalars and pointers
are loaded, aggregates copied to private memory, and local buffers either
loaded as pointers or allocated from their recorded size. -/
def unpack (g : LauncherGen) (b : Builder) (l : ArgBufferLayout) : List Operand × Builder :=
  let buffer : Operand := .param 0
  let (args, b) := l.slots.foldl (fun (args, b) s =>
    let ty := (g.kernel.params[s.index]?.map (·.ty)).getD .i32
    let (r, b) := match s.kind with
      | .scalar | .pointer => b.load ty buffer s.offset none
      | .byValue =>
          let (copy, b) := b.alloca privateAddressSpace (.imm s.size) s.align
          (copy, b.memcpy (.reg copy) buffer s.offset s.size)
      | .localMemory true =>
          let (size, b) := b.load (Ty.sizeT g.cfg.sizeTWidth) buffer s.offset none
          b.alloca g.cfg.addressSpaces.localSpace (.reg size) localBufferAlign
      | .localMemory false => b.load g.cfg.localPtr buffer s.offset none
    (args ++ [Operand.reg r], b)) (([] : List Operand), b)
  (args, b)

/-- Emits the body call with placeholder local ids and answers the
placeholders, to be replaced once the ids are known. -/
def bodyCall (b : Builder) (body : String) (args : List Operand) (ctx : Operand) : List Nat × Builder :=
  let (ids, b) := localIdParams.foldl (fun (ids, b) p =>
    let (r, b) := b.placeholder p
    (ids ++ [r], b)) (([] : List Nat), b)
  (ids, b.call body (args ++ [ctx] ++ ids.map Operand.reg))

/-- Replaces the placeholders by the ids in everything built so far; every
loop must be closed. -/
def resolve (b : Builder) (placeholders : List Nat) (ids : List Operand) : Builder :=
  let insts := replacePlaceholders b.finish (placeholders.zip ids)
  ({ Builder.startingAt b.next with fault := b.fault } : Builder).extend insts

/-- The bound of a work-item loop: one past the device's dimensions, else the
fixed size or the context's local size. -/
def localBound (g : LauncherGen) (b : Builder) (ctx : Operand) (bounds : Bounds) (dim : Nat) :
    Except Fault (Operand × Builder) :=
  if dim ≥ g.cfg.maxWorkItemDims then .ok (.imm 1, b)
  else match bounds with
    | .fixed size => .ok (.imm (size.getD dim 0), b)
    | .context => g.loadField b ctx .localSize dim

/-- Whether an operand is the constant one. -/
def isOne : Operand → Bool
  | .imm 1 => true
  | _ => false

/-- Opens a loop for each dimension, z first, whose bound is not one, and
answers the ids (zero where no loop opened) and the number of loops. -/
def openLoops (b : Builder) (bounds : List Operand) : List Operand × Nat × Builder :=
  [2, 1, 0].foldl (fun (ids, opened, b) dim =>
    let bound := bounds.getD dim (.imm 1)
    if isOne bound then (ids, opened, b)
    else
      let (v, b) := b.beginLoop bound
      (ids.set dim (.reg v), opened + 1, b)) ([.imm 0, .imm 0, .imm 0], 0, b)

/-- Closes `n` loops. -/
def closeLoops (b : Builder) (n : Nat) : Builder := (List.range n).foldl (fun b _ => b.endLoop) b

/-- Loops over the local ids, calling the body innermost. -/
def workItemLoops (g : LauncherGen) (b : Builder) (body : String) (args : List Operand) (ctx : Operand)
    (bounds : Bounds) : Except Fault Builder := do
  let (extents, b) ← [0, 1, 2].foldlM (fun (acc, b) dim => do
    let (e, b) ← g.localBound b ctx bounds dim
    pure (acc ++ [e], b)) (([] : List Operand), b)
  let (ids, opened, b) := openLoops b extents
  let (placeholders, b) := bodyCall b body args ctx
  pure (resolve (closeLoops b opened) placeholders ids)

/-- One body call with the ids the hardware reports. -/
def hardwareIds (g : LauncherGen) (b : Builder) (body : String) (args : List Operand) (ctx : Operand) :
    Builder :=
  let (ids, b) := (List.range (min g.cfg.maxWorkItemDims 3)).foldl (fun (ids, b) dim =>
    let (r, b) := b.callValue localIdIntrinsic [.imm dim]
    (ids.set dim (.reg r), b)) (([.imm 0, .imm 0, .imm 0] : List Operand), b)
  let (placeholders, b) := bodyCall b body args ctx
  resolve b placeholders ids

/-- Copies the context, then for every group stores its id into the copy and
calls the launcher with it. -/
def groupLoops (g : LauncherGen) (b : Builder) (launcher : String) (args : List Operand) (ctx : Operand) :
    Except Fault Builder := do
  let (groups, b) ← [0, 1, 2].foldlM (fun (acc, b) dim => do
    if dim < g.cfg.maxWorkItemDims then
      let (o, b) ← g.loadField b ctx .numGroups dim
      pure (acc ++ [o], b)
    else pure (acc ++ [Operand.imm 1], b)) (([] : List Operand), b)
  let (copyReg, b) := b.alloca g.cfg.addressSpaces.contextSpace (.imm g.context.size) g.context.align
  let copy : Operand := .reg copyReg
  let b := b.memcpy copy ctx 0 g.context.size
  let (opened, b) := [2, 1, 0].foldl (fun (opened, b) dim =>
    let bound := groups.getD dim (.imm 1)
    let (id, opened, b) := if isOne bound then (Operand.imm 0, opened, b)
      else
        let (v, b) := b.beginLoop bound
        (Operand.reg v, opened + 1, b)
    (opened, storeToContext b g.context copy .groupId dim id)) (0, b)
  pure (closeLoops (b.call launcher (args ++ [copy])) opened)

/-- Builds one launcher, and the record that it was emitted. -/
def generate (g : LauncherGen) (v : Variant) : Except Fault (Function × Log) := do
  let params : List Param := match v.signature with
    | .direct => g.kernel.params ++ [{ name := contextParam, ty := g.cfg.contextPtr }]
    | .buffer => [{ name := "_args", ty := g.cfg.argsPtr }, { name := contextParam, ty := g.cfg.contextPtr }]
  let ctx : Operand := .param (params.length - 1)
  let b := Builder.startingAt 0
  let (args, b) := match v.args with
    | .forward => ((List.range (params.length - 1)).map Operand.param, b)
    | .unpack l => g.unpack b l
  let b ← match v.iteration with
    | .workItems body bounds => g.workItemLoops b body args ctx bounds
    | .once body => pure (b.call body (args ++ [ctx]))
    | .hardware body => pure (g.hardwareIds b body args ctx)
    | .delegate launcher => pure (b.call launcher (args ++ [ctx]))
    | .groups launcher => g.groupLoops b launcher args ctx
  let b := b.ret
  if let some f := b.fault then throw f
  let name := v.kind.symbol g.kernel.name
  let attrs : FnAttrs := { launcher := some v.kind, derivedFrom := some g.kernel.name,
                           subgroupSize := g.subgroupSize, reqdWorkGroupSize := g.kernel.attrs.reqdWorkGroupSize }
  let note : LogRecord :=
    { level := .debug, target := launcherTarget, message := "emitted launcher",
      fields := [("launcher", name), ("kind", v.kind.label)] }
  pure ({ name, params, body := some b.finish, attrs }, #[note])

end LauncherGen

/-- The subgroup size a kernel requires, if the device offers it. -/
def requiredSubgroupSize (kernel : Function) (c : DeviceConfig) : Except Diagnostic (Option Nat) :=
  match kernel.attrs.reqdSubgroupSize with
  | none => .ok none
  | some size =>
      if c.subgroupSizes.contains size then .ok (some size)
      else
        let supported := if c.subgroupSizes.isEmpty then "none"
          else ", ".intercalate (c.subgroupSizes.map toString)
        .error ((Diagnostic.error ("kernel '" ++ kernel.name ++ "' requires subgroup size " ++ toString size ++
          " which device '" ++ c.name ++ "' does not support")).withNote ("supported subgroup sizes: " ++ supported))

/-- The local size the fast path is built for: the kernel's required size, or
the device's fixed one, each dimension within the device's limits (one past
its dimensions). -/
def fixedLocalSize (kernel : Function) (c : DeviceConfig) : Except Diagnostic Dims3 := do
  let size := kernel.attrs.reqdWorkGroupSize.getD c.localSize
  for dim in [0, 1, 2] do
    let limit := if dim < c.maxWorkItemDims then c.maxWorkItemSizes.getD dim 1 else 1
    let s := size.getD dim 0
    if s == 0 || s > limit then
      throw (Diagnostic.error ("work-group size " ++ toString s ++ " in dimension " ++ toString dim ++ " of '" ++
        kernel.name ++ "' is outside [1, " ++ toString limit ++ "]"))
  pure size

end KernelLaunch
