import KernelLaunch.Cli.Interface
import KernelLaunch.Cli.Workspace
import KernelLaunch.Diagnostic.Report
import KernelLaunch.Log.Terminal
import KernelLaunch.Ir.Load
import KernelLaunch.Ir.Print
import KernelLaunch.Layout.Json
import KernelLaunch.Interp.Harness
import KernelLaunch.Device.Toml
/-!
# The launcher tool

What each subcommand of `wglaunch` does, written once over a `Host`: the
files of the working directory and the two output streams. A run stops early
with an exit status; a problem with the inputs stops it with status 1 after
one line on standard error, or after a source report when the problem has a
place in a file that can be read.

* `launch` reads a device and a module, runs the pass with the layouts of a
  lock file if one is named, reports the kernels it skipped, writes the lock
  file back, writes the module next to the input (or where `-o` says), and
  lists the launchers of every kernel.
* `layout` prints the argument-buffer layout of every kernel, as JSON or as
  tables.
* `run` runs a kernel over a grid in the interpreter and counts what it did.
* `device` prints a device configuration.
-/

namespace KernelLaunch

namespace Cli

/-- What a run needs from where it runs: files to read and write relative to
the working directory, and the two output streams. -/
class Host (m : Type → Type) where
  readFile : String → m (Except IoError String)
  writeFile : String → String → m (Except IoError Unit)
  present : String → m Bool
  out : String → m Unit
  err : String → m Unit

/-- A run that may stop early reaches the same files and streams. -/
instance {ε : Type} {m : Type → Type} [Monad m] [Host m] : Host (ExceptT ε m) where
  readFile p := ExceptT.lift (Host.readFile p)
  writeFile p t := ExceptT.lift (Host.writeFile p t)
  present p := ExceptT.lift (Host.present p)
  out t := ExceptT.lift (Host.out t)
  err t := ExceptT.lift (Host.err t)

/-- What a run takes from outside its command line: the log filter and the
time stamp of log lines. -/
structure Setting where
  filter : LogFilter
  time : String
  deriving Inhabited

/-- A run that may stop early with an exit status. -/
abbrev Run (m : Type → Type) := ExceptT Nat m

variable {m : Type → Type} [Monad m] [Host m]

/-- Prints a line on standard error and stops with status 1. -/
def failWith {α : Type} (text : String) : Run m α := do
  Host.err (text ++ "\n")
  throw 1

/-- Stops as the program does on a defect of its own arithmetic. -/
def panicked {α : Type} (f : Fault) : Run m α := do
  Host.err ("thread 'main' panicked:\n" ++ f.message ++
    "\nnote: run with `RUST_BACKTRACE=1` environment variable to display a backtrace\n")
  throw 101

/-- Shows a diagnostic and stops: as a source report when it has a place and
the source is at hand, else as its plain text. -/
def refuse {α : Type} (d : Diagnostic) (path : String) (source : Option String) : Run m α := do
  match source with
  | some text => Host.err (if d.span.isDummy then d.display ++ "\n" else d.report path text)
  | none => Host.err (d.display ++ "\n")
  throw 1

/-- Reads a device file. -/
def loadDevice (path : String) : m (Except Diagnostic DeviceConfig) := do
  match ← Host.readFile path with
  | .error e => pure (.error (Diagnostic.error ("cannot read device config '" ++ path ++ "': " ++ e.message)))
  | .ok text => pure (DeviceConfig.parseToml text path)

/-- Resolves the device named on the command line. A failure is shown
against the file of that name, if there is one. -/
def resolveDevice (name : String) : Run m DeviceConfig := do
  let lookup (relative : String) : m (Option (Except Diagnostic DeviceConfig)) := do
    if ← Host.present relative then some <$> loadDevice relative else pure none
  match ← (DeviceConfig.resolveIn loadDevice lookup name : m _) with
  | .ok c => pure c
  | .error d => refuse d name (← Host.readFile name).toOption

/-- Reads and decodes a module. -/
def loadModule (path : String) : Run m Module := do
  match ← Host.readFile path with
  | .error e => failWith ("error: cannot read '" ++ path ++ "': " ++ e.message)
  | .ok text =>
      match Module.ofJsonText text with
      | .ok mod => pure mod
      | .error d => refuse d path (some text)

/-- Writes a file, stopping on failure. -/
def writeOrFail (path text : String) : Run m Unit := do
  match ← Host.writeFile path text with
  | .error e => failWith ("error: cannot write '" ++ path ++ "': " ++ e.message)
  | .ok () => pure ()

/-- Runs the pass over a module, printing the log lines the filter lets
through. -/
def runPass (s : Setting) (p : Pass) (mod : Module) : Run m (Pass × Module × PassReport) := do
  match p.runOnModule mod with
  | .error f => panicked f
  | .ok (p, mod, report, log) =>
      Host.err (s.filter.lines s.time log)
      pure (p, mod, report)

/-- The path with its extension replaced. Its name is the last part that is
neither empty nor `.`; without one, or when it is `..`, the path stays. The
extension is the text after the name's last dot, unless that dot starts the
name, and it goes together with whatever follows the name. A name `..x` that
ends the path keeps its stem and dot, `..`, which has no name to extend. -/
def withExtension (path ext : String) : String :=
  let parts := path.splitOn "/"
  let named (i : Nat) : Bool := parts.getD i "" != "" && parts.getD i "" != "."
  match (List.range parts.length).reverse.find? named with
  | none => path
  | some i =>
      let name := parts.getD i ""
      let dir := String.join ((parts.take i).map (· ++ "/"))
      let upToDot := (name.toList.reverse.dropWhile (· != '.')).reverse
      if name == ".." then path
      else match upToDot with
        | [] | ['.'] => dir ++ name ++ "." ++ ext
        | _ =>
            let stem := upToDot.dropLast
            if stem == ['.'] && i + 1 == parts.length then dir ++ ".."
            else dir ++ String.ofList stem ++ "." ++ ext

/-- Reads the layout lock file, or starts empty when there is none. -/
def loadLock (path : String) : Run m LayoutCache := do
  if !(← Host.present path) then return {}
  match ← Host.readFile path with
  | .error e => failWith ("error: cannot read '" ++ path ++ "': " ++ e.message)
  | .ok text =>
      match Reader.ofText Decode.layoutCache text with
      | .ok c => pure c
      | .error e => failWith ("error: invalid layout lock '" ++ path ++ "': " ++ e.message)

/-- The `launch` subcommand. -/
def launch (s : Setting) (r : LaunchRequest) : Run m Unit := do
  let cfg ← resolveDevice r.device
  let mod ← loadModule r.input
  let layouts ← match r.layoutLock with
    | some lock => loadLock lock
    | none => pure {}
  let (pass, mod, report) ← runPass s (Pass.create cfg layouts) mod
  for skip in report.skipped do
    Host.err ("warning: " ++ skip.render ++ "\n")
    for note in skip.diagnostic.notes do
      Host.err ("  note: " ++ note ++ "\n")
    if let some h := skip.diagnostic.help then Host.err ("  help: " ++ h ++ "\n")
  if let some lock := r.layoutLock then writeOrFail lock (pass.layouts.toJson.pretty ++ "\n")
  let output := r.output.getD (withExtension r.input "launch.json")
  writeOrFail output (mod.toJsonText ++ "\n")
  if r.print then Host.out mod.render
  Host.err (r.input ++ ": " ++ toString report.launchers.length ++ " kernel(s) launched, " ++
    toString report.skipped.length ++ " skipped -> " ++ output ++ "\n")
  for set in report.launchers do
    Host.err ("  " ++ set.kernel ++ " -> " ++ ", ".intercalate set.launchers ++ "\n")
  if r.strict && !report.skipped.isEmpty then throw 1

/-- The `layout` subcommand. -/
def layout (r : LayoutRequest) : Run m Unit := do
  let cfg ← resolveDevice r.device
  let mod ← loadModule r.input
  let mut layouts : List ArgBufferLayout := []
  let mut failed := false
  for k in mod.functions.filter (·.attrs.kernel) do
    match ArgBufferLayout.compute k cfg with
    | .error f => panicked f
    | .ok (.ok l) => layouts := layouts ++ [l]
    | .ok (.error d) =>
        Host.err (d.display ++ "\n")
        failed := true
  if r.text then
    for l in layouts do
      Host.out l.render
  else Host.out ((Json.arr (layouts.map ArgBufferLayout.toJson)).pretty ++ "\n")
  if failed then throw 1

/-- Reads sizes `x[,y[,z]]`, each part trimmed; missing ones are one. -/
def parseTriple (text : String) : Except String Dims3 := do
  let parts := (text.splitOn ",").map Text.trim
  if parts.length > 3 then throw ("expected 1 to 3 comma-separated sizes, got '" ++ text ++ "'")
  let sizes ← parts.mapM fun part => do
    let n ← match readInteger 0 Word.max part with
      | .ok n => pure n.toNat
      | .error _ => throw ("invalid size '" ++ part ++ "' in '" ++ text ++ "'")
    if n == 0 then throw ("sizes must be nonzero, got '" ++ text ++ "'")
    pure n
  pure ⟨sizes.getD 0 1, sizes.getD 1 1, sizes.getD 2 1⟩

/-- Sizes as a bracketed list. -/
def showDims (d : Dims3) : String :=
  "[" ++ toString d.x ++ ", " ++ toString d.y ++ ", " ++ toString d.z ++ "]"

/-- The largest buffer the host grants a run; a larger one cannot be reserved
and ends the run. -/
def allocationLimit : Nat := Nat.pow 2 36

/-- The largest size any buffer may have. -/
def capacityLimit : Nat := Nat.pow 2 63 - 1

/-- The argument values of a run, in parameter order: aggregates passed by
value get a zeroed copy, launcher-allocated local buffers their byte size,
other pointers a zeroed buffer, scalars the next given value or zero. -/
def hostValues (cfg : DeviceConfig) (set : LauncherSet) (kernel : Function) (scalars : List Nat)
    (bufferSize : Nat) : Exec (List Value) := do
  let (values, _) ← kernel.params.foldlM (fun (acc, rest) (p : Param) => do
      if p.byValue then
        let ptr ← Machine.alloc 0 (p.ty.size cfg.ptrBytes)
        pure (acc ++ [Value.ptr ptr], rest)
      else match p.ty with
        | .ptr space =>
            if space == cfg.addressSpaces.localSpace && cfg.allocaLocals && set.layout.isSome then
              pure (acc ++ [Value.int bufferSize], rest)
            else
              let ptr ← Machine.alloc space bufferSize
              pure (acc ++ [Value.ptr ptr], rest)
        | _ => pure (acc ++ [Value.int (rest.headD 0)], rest.drop 1))
    (([] : List Value), scalars)
  pure values

/-- The bytes a run allocates up front. -/
def upfrontSizes (cfg : DeviceConfig) (kernel : Function) (r : RunRequest) : List Nat :=
  kernel.params.map (fun p => if p.byValue then p.ty.size cfg.ptrBytes else r.bufferSize) ++
    (if cfg.deviceSidePrintf then [r.outputCapacity] else [])

/-- The `run` subcommand. -/
def run (s : Setting) (r : RunRequest) : Run m Unit := do
  let cfg ← resolveDevice r.device
  let mod ← loadModule r.input
  let items ← match parseTriple r.localSize with
    | .ok d => pure d
    | .error e => failWith ("error: --local: " ++ e)
  let groups ← match parseTriple r.groups with
    | .ok d => pure d
    | .error e => failWith ("error: --groups: " ++ e)
  let some kernel := mod.get? r.kernel
    | failWith ("error: no function '" ++ r.kernel ++ "' in module '" ++ mod.name ++ "'")
  let (_, mod, report) ← runPass s (Pass.create cfg) mod
  if let some skip := report.skipped.find? (·.kernel == r.kernel) then failWith ("error: " ++ skip.render)
  let some set := report.launchers.find? (·.kernel == r.kernel)
    | failWith ("error: '" ++ r.kernel ++ "' is not a kernel or already has launchers")
  if let some big := (upfrontSizes cfg kernel r).find? (· > allocationLimit) then
    if big > capacityLimit then panicked .capacityOverflow
    Host.err ("memory allocation of " ++ toString big ++ " bytes failed\n")
    throw 134
  let h := Harness.create cfg
  let go : Exec (Except Stop Unit) := do
    let values ← hostValues cfg set kernel r.scalars r.bufferSize
    let context := ContextValues.launch items groups
    let context ← if cfg.deviceSidePrintf then do
        let (v, _, _) ← h.attachOutput context r.outputCapacity
        pure v
      else pure context
    Machine.attempt (h.runGrid set values context)
  let (outcome, machine) := match go.run (Machine.create mod cfg) with
    | .ok res m1 => (res, m1)
    | .error e m1 => (.error e, m1)
  match outcome with
  | .error (.error e) => failWith ("error: " ++ e.message)
  | .error (.fault f) => panicked f
  | .ok () => pure ()
  let events := machine.events.toList
  let callees := events.filterMap fun e => match e with
    | .call callee _ => some callee
    | _ => none
  let names := (callees.mergeSort (· ≤ ·)).eraseDups
  let barriers := (events.filter fun e => match e with | .barrier => true | _ => false).length
  let outputs := (events.filter fun e => match e with | .printf _ _ => true | _ => false).length
  Host.out (r.kernel ++ " on " ++ cfg.name ++ ": local " ++ showDims items ++ ", groups " ++ showDims groups ++ "\n")
  for name in names do
    let count := toString (callees.count name)
    Host.out ("  " ++ "".pushn ' ' (8 - count.length) ++ count ++ "  " ++ name ++ "\n")
  Host.out ("  barriers " ++ toString barriers ++ ", outputs " ++ toString outputs ++ "\n")

/-- The `device` subcommand. -/
def device (name : String) : Run m Unit := do
  let cfg ← resolveDevice name
  let sp := cfg.addressSpaces
  let flag (b : Bool) : String := if b then "true" else "false"
  let sizes := if cfg.subgroupSizes.isEmpty then "none" else ", ".intercalate (cfg.subgroupSizes.map toString)
  Host.out (cfg.name ++ " (" ++ cfg.displayName ++ ")\n" ++
    "  address bits     " ++ toString cfg.addressBits ++ "\n" ++
    "  size_t           " ++ toString cfg.sizeTWidth ++ " bits\n" ++
    "  address spaces   global=" ++ toString sp.globalSpace ++ " local=" ++ toString sp.localSpace ++
      " constant=" ++ toString sp.constantSpace ++ " context=" ++ toString sp.contextSpace ++
      " args=" ++ toString sp.argsSpace ++ "\n" ++
    "  work-items       " ++ toString cfg.maxWorkItemDims ++ " dims, max " ++ showDims cfg.maxWorkItemSizes ++
      ", max groups per dim " ++ toString cfg.maxGridDimWidth ++ "\n" ++
    "  launchers        default" ++ (if cfg.fastPathEligible then " fast" else "") ++
      (if cfg.argBufferLauncher then " argbuffer" else "") ++ (if cfg.gridLauncher then " grid" else "") ++ "\n" ++
    (if cfg.dynamicLocalSize then "  local size       dynamic\n"
     else "  local size       " ++ showDims cfg.localSize ++ "\n") ++
    "  spmd             " ++ flag cfg.spmd ++ "\n" ++
    "  alloca locals    " ++ flag cfg.allocaLocals ++ "\n" ++
    "  zero offset      " ++ flag cfg.assumeZeroGlobalOffset ++ "\n" ++
    "  device printf    " ++ flag cfg.deviceSidePrintf ++ "\n" ++
    "  subgroup sizes   " ++ sizes ++ "\n")

/-- Runs a whole command line and answers the exit status. -/
def runCommandLine (s : Setting) (args : List String) : m Nat := do
  match readCommandLine args with
  | .answer text =>
      Host.out text
      pure 0
  | .reject text =>
      Host.err text
      pure 2
  | .invoke i =>
      let r : Run m Unit := match i with
        | .launch req => launch s req
        | .layout req => layout req
        | .run req => run s req
        | .device name => device name
      match ← r.run with
      | .ok () => pure 0
      | .error status => pure status

/-- A run against a modelled working directory: its files, and what was
written to either stream. -/
structure Session where
  files : Workspace
  stdout : String := ""
  stderr : String := ""
  deriving Inhabited

instance : Host (StateM Session) where
  readFile p := do pure ((← get).files.read p)
  writeFile p t := do
    let s ← get
    match s.files.write p t with
    | .ok w =>
        set { s with files := w }
        pure (.ok ())
    | .error e => pure (.error e)
  present p := do pure ((← get).files.present p)
  out t := modify fun s => { s with stdout := s.stdout ++ t }
  err t := modify fun s => { s with stderr := s.stderr ++ t }

/-- The log setting from the environment's two filter variables, with log
lines stamped `<time>`. -/
def Setting.ofEnvironment (own general : Option String) : Setting :=
  { filter := LogFilter.ofEnvironment own general, time := "<time>" }

/-- Runs a command line against a working directory: the exit status and the
session after it. -/
def runIn (s : Setting) (args : List String) (files : Workspace) : Nat × Session :=
  ((runCommandLine s args : StateM Session Nat)).run { files }

end Cli

end KernelLaunch
