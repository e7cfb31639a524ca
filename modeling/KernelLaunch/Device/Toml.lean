import KernelLaunch.Device.Config
import KernelLaunch.Diagnostic
import KernelLaunch.Word
/-!
# Device files

A device file is a small TOML subset: `[section]` headers, `key = value`
lines, `#` comments and blank lines. Values are words (an optional `+` then
decimal digits), `true` or `false`, integer arrays `[a, b, c]`, and strings
(surrounding quotes are dropped). Keys that are not set keep the host CPU
preset; the display name defaults to the name.

Errors carry the path as a prefix and the span of the offending line without
its surrounding white space; a missing name and an inconsistency found by
validation have no span.
-/

namespace KernelLaunch

namespace DeviceConfig

/-- A decimal word: an optional `+`, then ASCII digits, below 2^64. -/
def parseWord (s : String) : Option Nat :=
  let cs := s.toList
  let cs := match cs with
    | '+' :: rest => rest
    | _ => cs
  if cs.isEmpty || !cs.all Char.isDigit then none
  else
    let n := cs.foldl (fun n c => n * 10 + (c.toNat - 48)) 0
    if n ≤ Word.max then some n else none

/-- An integer array `[a, b, …]`: empty entries are skipped, every other entry
must be a word. -/
def parseWordArray (s : String) : Option (List Nat) :=
  let s := Text.trim s
  if s.startsWith "[" && s.endsWith "]" && s.length ≥ 2 then
    let inner := String.ofList ((s.toList.drop 1).dropLast)
    let parts := (inner.splitOn ",").map Text.trim |>.filter (fun p => !p.isEmpty)
    parts.mapM parseWord
  else none

/-- The lines of a run of characters, each with its line feed; `line` holds the characters of the
line being read, last first. A last line without a line feed is kept when it is not empty. -/
def splitLines : List Char → List Char → List (List Char)
  | [], [] => []
  | [], line => [line.reverse]
  | c :: cs, line => if c = '\n' then (c :: line).reverse :: splitLines cs [] else splitLines cs (c :: line)

/-- Lines with their line feeds, as the text holds them. -/
def linesWithBreaks (text : String) : List String :=
  (splitLines text.toList []).map String.ofList

/-- Drops trailing line feeds and carriage returns. -/
def dropLineEnd (s : String) : String :=
  String.ofList (s.toList.reverse.dropWhile (fun c => c = '\n' || c = '\r')).reverse

/-- Drops all surrounding double quotes. -/
def unquote (s : String) : String :=
  String.ofList ((s.toList.dropWhile (· = '"')).reverse.dropWhile (· = '"')).reverse

/-- Splits at the first `=`. -/
def splitAtEquals (s : String) : Option (String × String) :=
  let cs := s.toList
  match cs.idxOf? '=' with
  | some i => some (String.ofList (cs.take i), String.ofList (cs.drop (i + 1)))
  | none => none

/-- One setting applied to the configuration, or the error message of a bad value. -/
def applySetting (c : DeviceConfig) (group key value : String) : Except String DeviceConfig :=
  let int (what : String) : Except String Nat :=
    match parseWord value with
    | some n => .ok n
    | none => .error ("invalid " ++ what ++ ": " ++ value)
  let int32 (what : String) : Except String Nat := do pure (Word.low32 (← int what))
  let flag (what : String) : Except String Bool :=
    if value = "true" then .ok true
    else if value = "false" then .ok false
    else .error ("invalid " ++ what ++ ": " ++ value ++ " (expected bool)")
  let triple (what : String) : Except String Dims3 :=
    match parseWordArray value with
    | none => .error ("invalid " ++ what ++ ": " ++ value)
    | some [x] => .ok ⟨x, 1, 1⟩
    | some [x, y] => .ok ⟨x, y, 1⟩
    | some [x, y, z] => .ok ⟨x, y, z⟩
    | some _ => .error (what ++ " takes 1 to 3 entries")
  let sp := c.addressSpaces
  match group, key with
  | "device", "name" => .ok { c with name := unquote value }
  | "device", "display_name" => .ok { c with displayName := unquote value }
  | "device", "address_bits" => do pure { c with addressBits := ← int32 "device.address_bits" }
  | "device", "size_t_width" => do pure { c with sizeTWidth := ← int32 "device.size_t_width" }
  | "address_space", "global" => do
      pure { c with addressSpaces := { sp with globalSpace := ← int32 "address_space.global" } }
  | "address_space", "local" => do
      pure { c with addressSpaces := { sp with localSpace := ← int32 "address_space.local" } }
  | "address_space", "constant" => do
      pure { c with addressSpaces := { sp with constantSpace := ← int32 "address_space.constant" } }
  | "address_space", "context" => do
      pure { c with addressSpaces := { sp with contextSpace := ← int32 "address_space.context" } }
  | "address_space", "args" => do
      pure { c with addressSpaces := { sp with argsSpace := ← int32 "address_space.args" } }
  | "workitem", "max_dims" => do pure { c with maxWorkItemDims := ← int32 "workitem.max_dims" }
  | "workitem", "max_sizes" => do pure { c with maxWorkItemSizes := ← triple "workitem.max_sizes" }
  | "workitem", "max_grid_dim_width" => do
      pure { c with maxGridDimWidth := ← int "workitem.max_grid_dim_width" }
  | "launcher", "arg_buffer" => do pure { c with argBufferLauncher := ← flag "launcher.arg_buffer" }
  | "launcher", "grid" => do pure { c with gridLauncher := ← flag "launcher.grid" }
  | "launcher", "spmd" => do pure { c with spmd := ← flag "launcher.spmd" }
  | "launcher", "alloca_locals" => do pure { c with allocaLocals := ← flag "launcher.alloca_locals" }
  | "workgroup", "dynamic_local_size" => do
      pure { c with dynamicLocalSize := ← flag "workgroup.dynamic_local_size" }
  | "workgroup", "local_size" => do pure { c with localSize := ← triple "workgroup.local_size" }
  | "workgroup", "assume_zero_global_offset" => do
      pure { c with assumeZeroGlobalOffset := ← flag "workgroup.assume_zero_global_offset" }
  | "printf", "device_side" => do pure { c with deviceSidePrintf := ← flag "printf.device_side" }
  | "subgroup", "sizes" =>
      match parseWordArray value with
      | some xs => .ok { c with subgroupSizes := xs.map Word.low32 }
      | none => .error ("invalid subgroup.sizes: " ++ value)
  | _, _ => .error ("unknown key '" ++ key ++ "' in section [" ++ group ++ "]")

/-- An error of a device file: the message prefixed with the path, at a span. -/
def fileError (path : String) (span : Span) (msg : String) : Diagnostic :=
  Diagnostic.error (path ++ ": " ++ msg) span

/-- The configuration a device file starts from: the host CPU preset without its names. -/
def fileBase : DeviceConfig := { cpu with name := "", displayName := "" }

/-- Reads one line of a device file, given the configuration so far, the current section and the
byte at which the line starts. -/
def readLine (path : String) (acc : DeviceConfig × String × Nat) (line : String) :
    Except Diagnostic (DeviceConfig × String × Nat) := do
  let (c, group, lineStart) := acc
  let span := Span.ofLine lineStart (dropLineEnd line)
  let next := lineStart + line.utf8ByteSize
  let trimmed := Text.trim line
  if trimmed.isEmpty || trimmed.startsWith "#" then pure (c, group, next)
  else if trimmed.startsWith "[" && trimmed.endsWith "]" then
    let inner := String.ofList ((trimmed.toList.drop 1).dropLast)
    pure (c, Text.trim inner, next)
  else
    match splitAtEquals trimmed with
    | none => throw (fileError path span ("expected 'key = value', found '" ++ trimmed ++ "'"))
    | some (key, value) =>
        match applySetting c group (Text.trim key) (Text.trim value) with
        | .ok c' => pure (c', group, next)
        | .error msg => throw (fileError path span msg)

/-- Reads a device file. `path` prefixes every error message. -/
def parseToml (content path : String) : Except Diagnostic DeviceConfig := do
  let (c, _, _) ← (linesWithBreaks content).foldlM (readLine path) (fileBase, "", 0)
  if c.name.isEmpty then throw (fileError path Span.dummy "missing device.name")
  let c := if c.displayName.isEmpty then { c with displayName := c.name } else c
  match c.validate with
  | some msg => throw (fileError path Span.dummy msg)
  | none => pure c

/-- Whether a device name could reach outside the devices directory. -/
def isUnsafeName (name : String) : Bool :=
  name.contains '/' || name.contains '\\' || (name.splitOn "..").length > 1 || name.startsWith "."

/-- Resolves a device by name through the built-ins and then `lookup`, which
reads `devices/<name>.toml` if there is such a file. Names ending in `.toml`
are paths and read by `load`. The reads happen in `m`. -/
def resolveIn {m : Type → Type} [Monad m] (load : String → m (Except Diagnostic DeviceConfig))
    (lookup : String → m (Option (Except Diagnostic DeviceConfig))) (name : String) :
    m (Except Diagnostic DeviceConfig) :=
  if name.endsWith ".toml" then load name
  else if isUnsafeName name then pure (.error (Diagnostic.error ("invalid device name '" ++ name ++ "'")))
  else match builtin? name with
    | some c => pure (.ok c)
    | none => do
        let relative := "devices/" ++ name ++ ".toml"
        match ← lookup relative with
        | some r => pure r
        | none =>
            pure (.error ((Diagnostic.error ("unknown device '" ++ name ++ "' (looked for '" ++ relative ++
              "')")).withHelp "built-in devices: cpu, accel, spmd"))

/-- `resolveIn` with reads that need no effects. -/
def resolveWith (load : String → Except Diagnostic DeviceConfig)
    (lookup : String → Option (Except Diagnostic DeviceConfig)) (name : String) :
    Except Diagnostic DeviceConfig :=
  Id.run (resolveIn (fun p => pure (load p)) (fun p => pure (lookup p)) name)

end DeviceConfig

end KernelLaunch
