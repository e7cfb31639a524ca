import KernelLaunch.Context
import KernelLaunch.Kernel.Traits
import KernelLaunch.Log
import KernelLaunch.Diagnostic
/-!
# Work-item bodies

A kernel reads who it is (its local id, its group id, the launch shape) from
implicit globals. The body derived from it receives these explicitly: the
local ids as three trailing parameters, every other value as a load from the
context pointer that follows the kernel's own parameters, or as a constant
when the launch shape is fixed when the body is made. The kernel itself is
left as it is.

Errors here come in two layers: the outer one is a fault of the word
arithmetic that stops everything, the inner one a reason to leave the kernel
without launchers.
-/

namespace KernelLaunch

/-- Where a body gets the local size from. -/
inductive BodyFlavor where
  /-- From the context, at run time. -/
  | dynamic
  /-- Fixed when the body is made; the global offset is then zero. -/
  | fixed (size : Dims3)
  deriving Repr, Inhabited

/-- The name of a kernel's body of this flavor. -/
def BodyFlavor.symbol (flavor : BodyFlavor) (kernel : String) : String :=
  match flavor with
  | .dynamic => "_wl_" ++ kernel ++ "_body"
  | .fixed _ => "_wl_" ++ kernel ++ "_body_fast"

/-- The names of the local-id parameters, one per dimension. -/
def localIdParams : List String := ["_local_id_x", "_local_id_y", "_local_id_z"]

/-- The name of the context parameter. -/
def contextParam : String := "_context"

namespace Function

/-- The operand a handle stands for, if the map gives one; a later entry for
the same handle wins. -/
def lookupHandle (values : List (HandleRef × Operand)) (h : HandleRef) : Option Operand :=
  (values.reverse.find? fun (k, _) => k.kind == h.kind && k.dim == h.dim).map (·.2)

/-- The number of operands of an instruction, nested bodies left out, that
the map replaces. -/
def replacedIn (values : List (HandleRef × Operand)) (i : Inst) : Nat :=
  (i.operands.filter fun o => match o with
    | .handle h => (lookupHandle values h).isSome
    | _ => false).length

/-- Replaces every read of a mapped handle by its operand, in every nested
body, and answers the function with the number of operands replaced. -/
def privatize (f : Function) (values : List (HandleRef × Operand)) : Function × Nat :=
  let swap (o : Operand) : Operand := match o with
    | .handle h => (lookupHandle values h).getD o
    | _ => o
  match f.body with
  | none => (f, 0)
  | some insts =>
      let count := (Inst.preorderList insts).foldl (fun n i => n + replacedIn values i) 0
      ({ f with body := some (Inst.rewriteList (Inst.mapOperands swap) (fun _ => true) insts) }, count)

/-- Checks each handle the function reads against the device: a dimensional
handle must name one of its dimensions, any other handle dimension zero. -/
def validateHandles (f : Function) (c : DeviceConfig) : Except Diagnostic Unit :=
  f.handleRefs.forM fun h =>
    let limit := if h.kind.isDimensional then c.maxWorkItemDims else 1
    if h.dim ≥ limit then
      .error (Diagnostic.error ("handle " ++ h.kind.symbol ++ "[" ++ toString h.dim ++ "] in '" ++ f.name ++
        "' is outside dimensions [0, " ++ toString limit ++ ")"))
    else .ok ()

end Function

/-- The operand a body uses for a handle, emitting the context loads it needs
into the prelude; `none` for a handle that stays as it is. -/
def handleValue (c : DeviceConfig) (l : ContextLayout) (flavor : BodyFlavor) (n : Nat) (b : Builder)
    (h : HandleRef) : Except Fault (Option Operand × Builder) :=
  match h.kind, flavor with
  | .localId, _ =>
      if n + 1 + h.dim > Word.max32 then .error .addOverflow
      else .ok (some (.param (n + 1 + h.dim)), b)
  | .localSize, .fixed size =>
      if h.dim < 3 then .ok (some (.imm (size.getD h.dim 0)), b)
      else .error (.indexOutOfBounds h.dim 3)
  | .globalOffset, .fixed _ => .ok (some (.imm 0), b)
  | kind, _ =>
      match ContextField.ofHandle? kind with
      | some field => do
          let (r, b) ← loadFromContext b c l (.param n) field h.dim
          pure (some (.reg r), b)
      | none => .ok (none, b)

/-- Derives the body of a kernel. Its parameters are the kernel's, then the
context pointer, then, unless one call runs the whole work-group, a `size_t`
local id per dimension. A prelude of context loads comes first. -/
def deriveBody (kernel : Function) (c : DeviceConfig) (l : ContextLayout) (flavor : BodyFlavor)
    (shaped : Bool) : Except Fault (Except Diagnostic (Function × Log)) := do
  match kernel.validateHandles c with
  | .error d => return .error d
  | .ok () => pure ()
  let refs := kernel.handleRefs
  if shaped && refs.any (·.kind == .localId) then
    return .error ((Diagnostic.error ("work-group body '" ++ kernel.name ++ "' still reads " ++
      Handle.localId.symbol)).withHelp "barrier resolution must materialize local ids as loop variables")
  let n := kernel.params.length
  let params := kernel.params ++ [{ name := contextParam, ty := c.contextPtr }] ++
    (if shaped then [] else localIdParams.map fun p => { name := p, ty := c.sizeT })
  let start ← kernel.regCount?
  let (values, prelude) ← refs.foldlM (fun (acc, b) h => do
      let (v, b) ← handleValue c l flavor n b h
      if let some f := b.fault then throw f
      pure (match v with | some o => (acc ++ [(h, o)], b) | none => (acc, b)))
    (([] : List (HandleRef × Operand)), Builder.startingAt start)
  let attrs := { kernel.attrs with kernel := false, derivedFrom := some kernel.name, workgroupBody := shaped }
  let named : Function := { kernel with name := flavor.symbol kernel.name, params, attrs }
  let (rewritten, count) := named.privatize values
  let body := { rewritten with body := some (prelude.finish ++ rewritten.insts) }
  let note : LogRecord :=
    { level := .debug, target := privatizeTarget, message := "privatized implicit handles",
      fields := [("body", body.name), ("rewritten", toString count)] }
  return .ok (body, #[note])

namespace Module

/-- Drops the declared handles that nothing executable reads any more: only
kernels still to process, generated functions and what they reach count. -/
def removeDeadHandles (m : Module) (g : CallGraph) : Module × Log :=
  let roots := m.functions.filter fun f => f.attrs.derivedFrom.isSome || f.isKernelToProcess m
  let live := roots.foldl (fun acc f => (g.reachableFrom f.name).foldl (fun acc n =>
    match m.get? n with
    | some r => acc ++ r.handleRefs.map (·.kind)
    | none => acc) acc) ([] : List Handle)
  let kept := m.handles.filter fun h => live.contains h
  let removed := m.handles.length - kept.length
  let log : Log := if removed != 0 then
      #[{ level := .debug, target := privatizeTarget, message := "dropped dead handle declarations",
          fields := [("removed", toString removed)] }]
    else #[]
  ({ m with handles := kept }, log)

end Module

end KernelLaunch
