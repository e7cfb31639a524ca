import KernelLaunch.Kernel.Launcher
import KernelLaunch.Kernel.Output
import KernelLaunch.Layout.Cache
/-!
# The work-group pass

For every kernel of a module still without launchers, the pass derives the
kernel's bodies and emits its launchers:

```text
kernel @k(args)                published entry point, left as it is
fn @_wl_k_body(args, ctx, x, y, z)
@_wl_k_workgroup(args, ctx)            default launcher
@_wl_k_workgroup_fast(args, ctx)       fixed local size
@_wl_k_workgroup_argbuffer(args*, ctx) packed arguments
@_wl_k_grid(..., ctx)                  every work-group
```

Kernels are processed one at a time, each against the module as the kernels
before it left it. A kernel that cannot be processed is reported with the
reason and adds nothing; the others still get their launchers. The layout
cache and the output clones live in the pass, so a pass run over several
modules, or over one module several times, sees what it recorded before.
-/

namespace KernelLaunch

/-- Why a kernel got no launchers. -/
inductive SkipReason where
  /-- The kernel breaks a rule its input must keep. -/
  | malformedKernel
  /-- The kernel asks for what the device cannot give. -/
  | unsatisfiableRequirement
  deriving DecidableEq, Repr, Inhabited

namespace SkipReason

/-- The words the reason is shown with. -/
def label : SkipReason → String
  | .malformedKernel => "malformed kernel"
  | .unsatisfiableRequirement => "unsatisfiable requirement"

/-- The reason's tag in data. -/
def tag : SkipReason → String
  | .malformedKernel => "malformed_kernel"
  | .unsatisfiableRequirement => "unsatisfiable_requirement"

end SkipReason

/-- A kernel the pass left without launchers. -/
structure KernelSkip where
  kernel : String
  reason : SkipReason
  diagnostic : Diagnostic
  deriving Inhabited

/-- The one-line account of a skipped kernel. -/
def KernelSkip.render (s : KernelSkip) : String :=
  "skipped '" ++ s.kernel ++ "' (" ++ s.reason.label ++ "): " ++ s.diagnostic.message

/-- The symbols generated for one kernel. -/
structure LauncherSet where
  kernel : String
  body : String
  fastBody : Option String := none
  default : String
  fast : Option String := none
  argBuffer : Option String := none
  grid : Option String := none
  /-- One body call runs the whole work-group. -/
  workgroupBody : Bool
  subgroupSize : Option Nat := none
  layout : Option ArgBufferLayout := none
  deriving Inhabited

namespace LauncherSet

/-- Whether a fast launcher exists. -/
def fastEligible (s : LauncherSet) : Bool := s.fast.isSome

/-- The launcher a runtime enters one work-group through: the argument-buffer
launcher, else the fast one, else the default one. -/
def entry (s : LauncherSet) : String := s.argBuffer.getD (s.fast.getD s.default)

/-- The launchers: default, fast, argument-buffer, grid, those that exist. -/
def launchers (s : LauncherSet) : List String :=
  s.default :: ([s.fast, s.argBuffer, s.grid].filterMap id)

end LauncherSet

/-- A launcher a kernel gets only under a condition: nothing, or the launcher with the records
written for it and its symbol. -/
def LauncherGen.emitOpt (gen : LauncherGen) (name : String) :
    Option Variant → Except Fault (List Function × Log × Option String)
  | none => pure ([], #[], none)
  | some v => do
      let (f, notes) ← gen.generate v
      pure ([f], notes, some (v.kind.symbol name))

/-- The launchers of a kernel named `name`: the default one, then a fast one for a fixed local
size, an argument-buffer one for a layout and a grid one on a device that has them, each with the
records written for it, and the set that names them. The argument-buffer launcher delegates to
the fast launcher if there is one, and the grid launcher to the launcher a work-group is entered
through. -/
def LauncherGen.emitLaunchers (gen : LauncherGen) (name : String) (shaped : Bool) (fastSize : Option Dims3)
    (layout : Option ArgBufferLayout) : Except Fault (List Function × Log × LauncherSet) := do
  let perGroup := Iteration.perGroup shaped gen.cfg.spmd
  let default := LauncherKind.default.symbol name
  let (fd, notesDefault) ← gen.generate
    { kind := .default, signature := .direct, args := .forward,
      iteration := perGroup (BodyFlavor.dynamic.symbol name) .context }
  let (fastFns, notesFast, fast) ← gen.emitOpt name (fastSize.map fun size =>
    { kind := .fast, signature := .direct, args := .forward,
      iteration := perGroup ((BodyFlavor.fixed size).symbol name) (.fixed size) })
  let (bufferFns, notesBuffer, argBuffer) ← gen.emitOpt name (layout.map fun l =>
    { kind := .argBuffer, signature := .buffer, args := .unpack l, iteration := .delegate (fast.getD default) })
  let (gridFns, notesGrid, grid) ← gen.emitOpt name (if gen.cfg.gridLauncher then
      some { kind := .grid, signature := if argBuffer.isSome then .buffer else .direct, args := .forward,
             iteration := .groups (argBuffer.getD (fast.getD default)) }
    else none)
  let fastBody := fastSize.map fun s => (BodyFlavor.fixed s).symbol name
  pure ([fd] ++ fastFns ++ bufferFns ++ gridFns, notesDefault ++ notesFast ++ notesBuffer ++ notesGrid,
    { kernel := name, body := BodyFlavor.dynamic.symbol name, fastBody, default, fast, argBuffer, grid,
      workgroupBody := shaped, subgroupSize := gen.subgroupSize, layout })

/-- What one run over a module did. -/
structure PassReport where
  launchers : List LauncherSet := []
  skipped : List KernelSkip := []
  deriving Inhabited

/-- Whether the module changed: some kernel got launchers. -/
def PassReport.changed (r : PassReport) : Bool := !r.launchers.isEmpty

/-- The state the pass keeps between runs. -/
structure Pass where
  cfg : DeviceConfig
  context : ContextLayout
  outputs : OutputClones := {}
  layouts : LayoutCache := {}
  deriving Inhabited

/-- Everything generated for one kernel, committed at once. -/
structure Emission where
  functions : List Function
  set : LauncherSet
  outputs : OutputClones

namespace Pass

/-- A fresh pass for a device. -/
def create (c : DeviceConfig) (layouts : LayoutCache := {}) : Pass :=
  { cfg := c, context := ContextLayout.ofDevice c, layouts }

/-- What is wrong with a parameter in the launcher calling convention, if
anything: the first of a pointer into a space kernels cannot receive, an
aggregate passed directly, a scalar passed by value, a size past 64 bits. -/
def paramProblem (c : DeviceConfig) (p : Param) : Option String :=
  match p.ty with
  | .ptr s =>
      if !c.isKernelArgSpace s then
        some ("points into address space " ++ toString s ++ " which kernels cannot receive")
      else rest
  | _ => rest
where
  rest : Option String :=
    if p.ty.isAggregate && !p.byValue then some "is an aggregate not passed by value"
    else if p.byValue && !p.ty.isAggregate then some "is passed by value but is not an aggregate"
    else if (p.ty.checkedSize c.ptrBytes).isNone then
      some ("has type " ++ p.ty.render ++ " whose size does not fit in 64 bits")
    else none

/-- Every parameter must fit the launcher calling convention. -/
def checkParams (c : DeviceConfig) (k : Function) : Except Diagnostic Unit :=
  k.params.forM fun p => match paramProblem c p with
    | some problem => .error (Diagnostic.error ("parameter '" ++ p.name ++ "' of '" ++ k.name ++ "' " ++ problem))
    | none => .ok ()

/-- Only the kernel itself may read implicit handles: helpers get no context. -/
def checkHelpers (k : Function) (m : Module) (g : CallGraph) : Except Diagnostic Unit :=
  (g.reachableFrom k.name).forM fun name =>
    if name == k.name then .ok ()
    else match m.get? name with
      | none => .ok ()
      | some helper => match helper.handleRefs with
        | h :: _ => .error ((Diagnostic.error ("helper '" ++ name ++ "' called from '" ++ k.name ++ "' reads " ++
            h.kind.symbol)).withHelp "pass the value to the helper as an argument")
        | [] => .ok ()

/-- The first generated function whose name the module already uses. -/
def collision (m : Module) (fs : List Function) : Option Function := fs.find? (m.contains ·.name)

/-- Derives a kernel's body of each flavor in turn, with the kernel's subgroup size and, on
devices that print into a buffer, with its output routed there, after the helper clones that
needs. Answers the records written, and the clones and the functions made (the clones before the
body they serve), or the diagnostic of the first flavor that fails. -/
def deriveBodies (p : Pass) (m : Module) (g : CallGraph) (name : String) (kernel : Function)
    (subgroupSize : Option Nat) (shaped : Bool) :
    List BodyFlavor → Log → OutputClones → List Function →
      Except Fault (Log × Except Diagnostic (OutputClones × List Function))
  | [], log, outputs, functions => pure (log, .ok (outputs, functions))
  | flavor :: flavors, log, outputs, functions => do
      match ← deriveBody kernel p.cfg p.context flavor shaped with
      | .error d => pure (log, .error d)
      | .ok (body, notes) =>
          let body := { body with attrs := { body.attrs with subgroupSize } }
          if p.cfg.deviceSidePrintf then
            let (outputs, body, created, more) ←
              outputs.thread m g name body (.param kernel.params.length) p.cfg p.context
            p.deriveBodies m g name kernel subgroupSize shaped flavors (log ++ notes ++ more) outputs
              (functions ++ created ++ [body])
          else
            p.deriveBodies m g name kernel subgroupSize shaped flavors (log ++ notes) outputs (functions ++ [body])

/-- The local size the kernel's fast path is built for, if the device takes the fast path; a
kernel that requires a work-group size has it checked even when the device does not. -/
def fastSizeOf (kernel : Function) (c : DeviceConfig) : Except Diagnostic (Option Dims3) :=
  if kernel.attrs.reqdWorkGroupSize.isSome || c.fastPathEligible then
    match fixedLocalSize kernel c with
    | .ok s => .ok (if c.fastPathEligible then some s else none)
    | .error d => .error d
  else .ok none

/-- The argument-buffer layout of a kernel on a device with argument-buffer launchers, checked
against the layouts recorded before, or why the kernel is skipped. -/
def layoutFor (p : Pass) (name : String) (kernel : Function) :
    Except Fault (Except KernelSkip (Option ArgBufferLayout)) :=
  if p.cfg.argBufferLauncher then
    (ArgBufferLayout.compute kernel p.cfg).map fun
      | .error d => .error { kernel := name, reason := .malformedKernel, diagnostic := d }
      | .ok l => match p.layouts.check l with
        | .error d => .error { kernel := name, reason := .unsatisfiableRequirement, diagnostic := d }
        | .ok () => .ok (some l)
  else pure (.ok none)

/-- Processes one kernel: checks it, derives its bodies and emits its
launchers. Answers the records written on the way and the emission, or why
the kernel is skipped. -/
def processKernel (p : Pass) (m : Module) (g : CallGraph) (name : String) :
    Except Fault (Log × Except KernelSkip Emission) := do
  let c := p.cfg
  let malformed (d : Diagnostic) : KernelSkip := { kernel := name, reason := .malformedKernel, diagnostic := d }
  let unsatisfiable (d : Diagnostic) : KernelSkip :=
    { kernel := name, reason := .unsatisfiableRequirement, diagnostic := d }
  let some kernel := m.get? name
    | return (#[], .error (malformed (Diagnostic.error ("kernel '" ++ name ++ "' not found"))))
  if let .error d := checkParams c kernel then return (#[], .error (malformed d))
  let subgroupSize ← match requiredSubgroupSize kernel c with
    | .ok s => pure s
    | .error d => return (#[], .error (unsatisfiable d))
  if let .error d := checkHelpers kernel m g then return (#[], .error (malformed d))
  let shaped := kernel.hasWorkgroupBarriers m g
  let fastSize ← match fastSizeOf kernel c with
    | .ok s => pure s
    | .error d => return (#[], .error (malformed d))
  let layout ← match ← p.layoutFor name kernel with
    | .ok l => pure l
    | .error s => return (#[], .error s)
  -- Bodies, then launchers.
  let (log, bodies) ← p.deriveBodies m g name kernel subgroupSize shaped
    (BodyFlavor.dynamic :: (fastSize.map BodyFlavor.fixed).toList) #[] p.outputs []
  let (outputs, functions) ← match bodies with
    | .error d => return (log, .error (malformed d))
    | .ok r => pure r
  let gen : LauncherGen := { cfg := c, context := p.context, kernel, subgroupSize }
  let (launchers, notes, set) ← gen.emitLaunchers name shaped fastSize layout
  let functions := functions ++ launchers
  let log := log ++ notes
  if let some taken := collision m functions then
    return (log, .error (malformed ((Diagnostic.error ("generated function '" ++ taken.name ++ "' for '" ++ name ++
      "' collides with an existing function")).withHelp "rename the existing function")))
  let log := log.push
    { level := .debug, target := passTarget, message := "generated",
      fields := [("launchers", toString set.launchers.length), ("workgroup_body", toString shaped)] }
  return (log, .ok { functions, set, outputs })

/-- Adds an emission to the module: records its layout, declares the local-id
function on devices that run one invocation per work-item, and appends the
generated functions. -/
def commit (p : Pass) (m : Module) (e : Emission) : Pass × Module × Log :=
  let (layouts, log) := match e.set.layout with
    | some l => match p.layouts.record l with
      | .ok (layouts, log) => (layouts, log)
      | .error d => (p.layouts, #[{ level := .warn, target := passTarget, message := d.message }])
    | none => (p.layouts, #[])
  let m := if p.cfg.spmd && !m.contains localIdIntrinsic then
      { m with functions := m.functions ++
        [{ name := localIdIntrinsic, params := [{ name := "dim", ty := .i32 }] }] }
    else m
  let log := log.push
    { level := .debug, target := passTarget, message := "committed",
      fields := [("functions", toString e.functions.length)] }
  ({ p with layouts, outputs := e.outputs }, { m with functions := m.functions ++ e.functions }, log)

/-- Sets the scope of records written while a kernel is processed. -/
def inKernel (name : String) (log : Log) : Log :=
  let scope : Scope := { name := "kernel", level := .info, target := passTarget, fields := [("name", name)] }
  log.map fun r => { r with scopes := scope :: r.scopes }

/-- Processes the kernel named `name` against the module as extended so far: commits what it
made, or reports it skipped. -/
def visitKernel : Pass × Module × PassReport × Log → String → Except Fault (Pass × Module × PassReport × Log)
  | (p, m, report, log), name => do
      let g := CallGraph.build m
      let (notes, outcome) ← p.processKernel m g name
      match outcome with
      | .ok e =>
          let (p, m, more) := p.commit m e
          pure (p, m, { report with launchers := report.launchers ++ [e.set] }, log ++ inKernel name (notes ++ more))
      | .error s =>
          let warn : LogRecord :=
            { level := .warn, target := passTarget, message := s.diagnostic.message,
              fields := [("reason", s.reason.label)] }
          pure (p, m, { report with skipped := report.skipped ++ [s] }, log ++ inKernel name (notes.push warn))

/-- Runs the pass over a module. Answers the pass with what it recorded, the
module with the launchers added, the report and the records written. -/
def runOnModule (p : Pass) (m : Module) : Except Fault (Pass × Module × PassReport × Log) := do
  let p := { p with outputs := {} }
  let kernels := (m.functions.filter (·.isKernelToProcess m)).map (·.name)
  let start : LogRecord :=
    { level := .info, target := passTarget, message := "work-group pass",
      fields := [("module", m.name), ("device", p.cfg.name), ("kernels", toString kernels.length)] }
  let (p, m, report, log) ← kernels.foldlM visitKernel (p, m, ({} : PassReport), #[start])
  if report.changed then
    let (m, more) := m.removeDeadHandles (CallGraph.build m)
    pure (p, m, report, log ++ more)
  else pure (p, m, report, log)

end Pass

end KernelLaunch
