import KernelLaunch.Cli.Parse
/-!
# The command line of the launcher tool

`wglaunch` has four subcommands: `launch` adds launchers to a module and
writes it out, `layout` prints argument-buffer layouts, `run` runs a kernel
in the interpreter, and `device` prints a device configuration. This module
describes them, and reads a command line into an `Invocation`, or into the
text to show instead: a help page or the version on standard output, or a
refusal on standard error.
-/

namespace KernelLaunch

namespace Cli

/-- The tool's name. -/
def toolName : String := "wglaunch"

/-- The tool's version. -/
def toolVersion : String := "0.1.0"

/-- The switch that shows a help page. -/
def helpArg : ArgSpec :=
  { id := "help", long := some "help", short := some 'h', help := "Print help", action := .help }

/-- The switch that shows the version. -/
def versionArg : ArgSpec :=
  { id := "version", long := some "version", short := some 'V', help := "Print version", action := .version }

/-- The input module. -/
def inputArg : ArgSpec :=
  { id := "input", valueName := "INPUT", help := "Input module (JSON)", kind := .path, required := true }

/-- The target device, with a default. -/
def deviceArg (default : String) : ArgSpec :=
  { id := "device", long := some "device", valueName := "DEVICE",
    help := "Target device: built-in name or path to a .toml file", defaultValue := some default }

/-- The `launch` subcommand. -/
def launchSpec : CommandSpec :=
  { bin := toolName ++ " launch", about := "Emit launchers for every kernel of a module",
    args := [inputArg, deviceArg "cpu",
      { id := "output", long := some "output", short := some 'o', valueName := "OUTPUT",
        help := "Output module (default: <input>.launch.json)", kind := .path },
      { id := "print", long := some "print", help := "Print the transformed module to stdout", action := .flag },
      { id := "layout_lock", long := some "layout-lock", valueName := "PATH",
        help := "Argument-buffer layout lock file to check against and update", kind := .path },
      { id := "strict", long := some "strict", help := "Exit with an error when any kernel is skipped",
        action := .flag },
      helpArg] }

/-- The `layout` subcommand. -/
def layoutSpec : CommandSpec :=
  { bin := toolName ++ " layout", about := "Print argument-buffer layouts as JSON",
    args := [inputArg, deviceArg "accel",
      { id := "text", long := some "text", help := "Print the human-readable table instead of JSON",
        action := .flag },
      helpArg] }

/-- The `run` subcommand. -/
def runSpec : CommandSpec :=
  { bin := toolName ++ " run", about := "Run a kernel over a grid in the reference interpreter",
    args := [inputArg, deviceArg "cpu",
      { id := "kernel", long := some "kernel", valueName := "KERNEL", help := "Kernel to run", required := true },
      { id := "local", long := some "local", valueName := "LOCAL", help := "Local work-group size, x[,y[,z]]",
        defaultValue := some "1" },
      { id := "groups", long := some "groups", valueName := "GROUPS", help := "Number of work-groups, x[,y[,z]]",
        defaultValue := some "1" },
      { id := "scalar", long := some "scalar", valueName := "SCALAR",
        help := "Scalar argument values in parameter order (pointers are skipped)", action := .append,
        kind := .count, delimiter := some ',' },
      { id := "buffer_size", long := some "buffer-size", valueName := "BUFFER_SIZE",
        help := "Bytes allocated for every pointer argument", kind := .count, defaultValue := some "4096" },
      { id := "output_capacity", long := some "output-capacity", valueName := "OUTPUT_CAPACITY",
        help := "Capacity of the device-side output buffer in bytes", kind := .count32,
        defaultValue := some "4096" },
      helpArg] }

/-- The `device` subcommand. -/
def deviceSpec : CommandSpec :=
  { bin := toolName ++ " device", about := "Print a resolved device configuration",
    args := [{ id := "device", valueName := "DEVICE", required := true,
               help := "Built-in device (cpu, accel, spmd), devices/<name>.toml, or a .toml path" },
      helpArg] }

/-- What the `help` subcommand does. -/
def helpAbout : String := "Print this message or the help of the given subcommand(s)"

/-- The tool itself. -/
def toolSpec : CommandSpec :=
  { bin := toolName, about := "Generate work-group launchers for SPMD compute kernels",
    args := [helpArg, versionArg],
    subcommands := [("launch", launchSpec.about), ("layout", layoutSpec.about), ("run", runSpec.about),
      ("device", deviceSpec.about), ("help", helpAbout)] }

/-- The help page of the `help` subcommand. -/
def helpPageOfHelp : String :=
  helpAbout ++ "\n\nUsage: " ++ toolName ++ " help [COMMAND]...\n\nArguments:\n" ++
    "  [COMMAND]...  Print help for the subcommand(s)\n"

/-- The subcommands with arguments, by name. -/
def subcommandSpec? : String → Option CommandSpec
  | "launch" => some launchSpec
  | "layout" => some layoutSpec
  | "run" => some runSpec
  | "device" => some deviceSpec
  | _ => none

/-- The names of the subcommands. -/
def subcommandNames : List String := toolSpec.subcommands.map (·.1)

/-- What `launch` was asked to do. -/
structure LaunchRequest where
  input : String
  device : String
  output : Option String
  print : Bool
  layoutLock : Option String
  strict : Bool
  deriving Inhabited

/-- What `layout` was asked to do. -/
structure LayoutRequest where
  input : String
  device : String
  text : Bool
  deriving Inhabited

/-- What `run` was asked to do; the sizes are still text. -/
structure RunRequest where
  input : String
  device : String
  kernel : String
  localSize : String
  groups : String
  scalars : List Nat
  bufferSize : Nat
  outputCapacity : Nat
  deriving Inhabited

/-- A subcommand with its arguments. -/
inductive Invocation where
  | launch (r : LaunchRequest)
  | layout (r : LayoutRequest)
  | run (r : RunRequest)
  | device (name : String)
  deriving Inhabited

/-- What a command line comes to. -/
inductive Reading where
  /-- A subcommand to run. -/
  | invoke (i : Invocation)
  /-- Text for standard output, with success. -/
  | answer (text : String)
  /-- Text for standard error, with the usage-error status. -/
  | reject (text : String)
  deriving Inhabited

/-- The request of a subcommand from its matches. -/
def invocationOf (name : String) (m : Matches) : Invocation :=
  match name with
  | "launch" =>
      .launch
        { input := m.text "input" "", device := m.text "device" "cpu", output := m.text? "output",
          print := m.flag "print", layoutLock := m.text? "layout_lock", strict := m.flag "strict" }
  | "layout" => .layout { input := m.text "input" "", device := m.text "device" "accel", text := m.flag "text" }
  | "run" =>
      .run
        { input := m.text "input" "", device := m.text "device" "cpu", kernel := m.text "kernel" "",
          localSize := m.text "local" "1", groups := m.text "groups" "1", scalars := m.numbers "scalar",
          bufferSize := ((m.numbers "buffer_size").head?).getD 4096,
          outputCapacity := ((m.numbers "output_capacity").head?).getD 4096 }
  | _ => .device (m.text "device" "")

/-- Reads a subcommand's words. -/
def readSubcommand (name : String) (spec : CommandSpec) (words : List String) : Reading :=
  match readCommand spec words with
  | .ok m => .invoke (invocationOf name m)
  | .error .help => .answer spec.helpPage
  | .error .version => .answer (toolName ++ " " ++ toolVersion ++ "\n")
  | .error (.refused e) => .reject e.render

/-- The help page a `help` subcommand asks for. -/
def readHelp : List String → Reading
  | [] => .answer toolSpec.helpPage
  | name :: rest =>
      let page? : Option (String × String) := match subcommandSpec? name with
        | some spec => some (spec.helpPage, spec.helpUsage)
        | none => if name == "help" then some (helpPageOfHelp, toolName ++ " help [COMMAND]...") else none
      match page?, rest with
      | none, _ => .reject (ArgError.unknownSubcommand name [] toolSpec.helpUsage).render
      | some (page, _), [] => .answer page
      | some (_, usage), next :: _ => .reject (ArgError.unknownSubcommand next [] usage).render

/-- The option of some subcommand close to an unknown top-level option, for
the first such subcommand named later on the line. -/
def subcommandOptionLike (name : String) (later : List String) : Option (String × String) :=
  let found := subcommandNames.filterMap fun sub => do
    let spec ← subcommandSpec? sub
    let cand ← closestName? name (longNames spec)
    let pos ← later.idxOf? sub
    pure (pos, cand, sub)
  match found.mergeSort (fun a b => a.1 ≤ b.1) with
  | (_, cand, sub) :: _ => some (cand, sub)
  | [] => none

/-- Reads a whole command line. -/
def readCommandLine (words : List String) : Reading :=
  go false words
where
  go (trailing : Bool) : List String → Reading
    | [] => .reject toolSpec.helpPage
    | w :: rest =>
        let usage := toolSpec.helpUsage
        if trailing then
          if w == "help" || (subcommandSpec? w).isSome then
            .reject (ArgError.escapedSubcommand w usage).render
          else .reject (ArgError.unknownSubcommand w (similarNames w subcommandNames) usage).render
        else if w == "help" then readHelp rest
        else if let some spec := subcommandSpec? w then readSubcommand w spec rest
        else if w == "--" then go true rest
        else if w.startsWith "--" then
          let (name, attached) := splitAttached (w.drop 2).toString
          match name, attached with
          | "help", none => .answer toolSpec.helpPage
          | "version", none => .answer (toolName ++ " " ++ toolVersion ++ "\n")
          | "help", some v => .reject (ArgError.unexpectedValue v "--help" (toolSpec.smartUsage ["help"])).render
          | "version", some v =>
              .reject (ArgError.unexpectedValue v "--version" (toolSpec.smartUsage ["version"])).render
          | _, _ =>
              match closestName? name (longNames toolSpec) with
              | some cand =>
                  .reject (ArgError.unexpectedArgument ("--" ++ name) (some ("--" ++ cand)) none false
                    (toolSpec.smartUsage [cand])).render
              | none =>
                  match subcommandOptionLike name rest with
                  | some (cand, sub) =>
                      .reject (ArgError.unexpectedArgument ("--" ++ name) (some ("--" ++ cand)) (some sub) false
                        usage).render
                  | none => .reject (ArgError.unexpectedArgument ("--" ++ name) none none false usage).render
        else if w.startsWith "-" && w.length > 1 then
          match (w.drop 1).toString.toList with
          | 'h' :: _ => .answer toolSpec.helpPage
          | 'V' :: _ => .answer (toolName ++ " " ++ toolVersion ++ "\n")
          | c :: _ => .reject (ArgError.unexpectedArgument ("-" ++ c.toString) none none false usage).render
          | [] => .reject (ArgError.unknownSubcommand w [] usage).render
        else .reject (ArgError.unknownSubcommand w (similarNames w subcommandNames) usage).render

end Cli

end KernelLaunch
