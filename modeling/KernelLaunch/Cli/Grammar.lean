/-!
# Command-line grammar

A command takes positional arguments and options. This module holds the
description of a command (`CommandSpec`), the texts made from it (the usage
line, the help page) and the refusals of a command line with their wording
(`ArgError`).

Help pages follow one layout: the description, the usage line, then a section
of positional arguments and one of options, each entry padded so that the
descriptions start in one column. When a description would not fit beside
its entry in a hundred columns, every entry of the section puts its
description on the next line instead.
-/

namespace KernelLaunch

namespace Cli

/-- How the text of a value is read. -/
inductive ValueKind where
  /-- Any text. -/
  | text
  /-- A path, which must not be empty. -/
  | path
  /-- An unsigned 64-bit number. -/
  | count
  /-- An unsigned 32-bit number. -/
  | count32
  deriving DecidableEq, Repr, Inhabited

/-- What an occurrence of an argument does. -/
inductive ArgAction where
  /-- Takes one value, once. -/
  | set
  /-- Takes one value each time, split at a delimiter, and collects them. -/
  | append
  /-- A switch, once. -/
  | flag
  /-- Shows the help page. -/
  | help
  /-- Shows the version. -/
  | version
  deriving DecidableEq, Repr, Inhabited

/-- One argument of a command. -/
structure ArgSpec where
  id : String
  long : Option String := none
  short : Option Char := none
  valueName : String := ""
  help : String
  action : ArgAction := .set
  kind : ValueKind := .text
  defaultValue : Option String := none
  required : Bool := false
  delimiter : Option Char := none
  deriving Inhabited

namespace ArgSpec

/-- Whether the argument is named by position rather than by a flag. -/
def isPositional (a : ArgSpec) : Bool := a.long.isNone && a.short.isNone

/-- Whether an occurrence takes a value. -/
def takesValue (a : ArgSpec) : Bool := a.action == .set || a.action == .append

/-- The value placeholder: `<NAME>`, or `[NAME]` for an optional positional. -/
def placeholder (a : ArgSpec) : String :=
  if a.isPositional && !a.required then "[" ++ a.valueName ++ "]" else "<" ++ a.valueName ++ ">"

/-- The flag part: `--long`, else `-s`. -/
def flagName (a : ArgSpec) : String :=
  match a.long, a.short with
  | some l, _ => "--" ++ l
  | none, some s => "-" ++ s.toString
  | none, none => ""

/-- How the argument is named in messages: `--device <DEVICE>`, `--print`,
`<INPUT>`. -/
def display (a : ArgSpec) : String :=
  if a.isPositional then a.placeholder
  else if a.takesValue then a.flagName ++ " " ++ a.placeholder
  else a.flagName

/-- Whether the argument is one of the built-in help and version switches. -/
def isBuiltIn (a : ArgSpec) : Bool := a.action == .help || a.action == .version

end ArgSpec

/-- A command: its name as used in usage lines, what it does, its arguments
in the order they are described, and its subcommands by name and purpose. -/
structure CommandSpec where
  bin : String
  about : String
  args : List ArgSpec
  subcommands : List (String × String) := []
  deriving Inhabited

namespace CommandSpec

/-- The positional arguments, in order. -/
def positionals (c : CommandSpec) : List ArgSpec := c.args.filter (·.isPositional)

/-- The flagged arguments, in order. -/
def options (c : CommandSpec) : List ArgSpec := c.args.filter (!·.isPositional)

/-- The argument with the given id. -/
def find? (c : CommandSpec) (id : String) : Option ArgSpec := c.args.find? (·.id == id)

/-- Whether the usage line needs `[OPTIONS]`: some option that is neither
built in nor required. -/
def needsOptionsTag (c : CommandSpec) : Bool :=
  c.options.any fun a => !a.isBuiltIn && !a.required

/-- The usage line of the help page: name, `[OPTIONS]`, the required
options, every positional, and the subcommand placeholder. -/
def helpUsage (c : CommandSpec) : String :=
  let opts := c.options.filter (·.required)
  let parts := (if c.needsOptionsTag then ["[OPTIONS]"] else []) ++ opts.map (·.display) ++
    c.positionals.map (·.display) ++ (if c.subcommands.isEmpty then [] else ["<COMMAND>"])
  " ".intercalate (c.bin :: parts)

/-- The usage line of a refusal that names what was used: the required
options, then the used ones in the order they were used, then every
positional and the subcommand placeholder. -/
def smartUsage (c : CommandSpec) (used : List String) : String :=
  let required := c.args.filter (·.required)
  let ids := (required.map (·.id) ++ used).foldl (fun acc i => if acc.contains i then acc else acc ++ [i]) []
  let opts := ids.filterMap fun i => (c.find? i).filter (!·.isPositional)
  " ".intercalate (c.bin :: (opts.map (·.display) ++ c.positionals.map (·.display) ++
    (if c.subcommands.isEmpty then [] else ["<COMMAND>"])))

/-- The usage line of a refusal: the help page's when nothing was used. -/
def usageFor (c : CommandSpec) (used : List String) : String :=
  if used.isEmpty then c.helpUsage else c.smartUsage used

end CommandSpec

/-- The width help pages are laid out for. -/
def helpWidth : Nat := 100

/-- Columns of indentation before an entry. -/
def entryIndent : String := "  "

/-- Columns of indentation of a description on its own line. -/
def nextLineIndent : String := "          "

/-- Spaces. -/
def spaces (n : Nat) : String := "".pushn (Char.ofNat 32) n

/-- The default shown after a description. -/
def defaultNote (a : ArgSpec) : String :=
  match a.defaultValue with
  | some d => if a.takesValue then "[default: " ++ d ++ "]" else ""
  | none => ""

/-- A description with its default. -/
def describe (a : ArgSpec) : String :=
  let note := defaultNote a
  if note.isEmpty then a.help else if a.help.isEmpty then note else a.help ++ " " ++ note

/-- The width an entry takes before the padding: options reserve four
columns for the short flag. -/
def entryWidth (a : ArgSpec) : Nat :=
  if a.isPositional then a.display.length else a.display.length + 4

/-- The entry text itself: `-o, --output <OUTPUT>`, `    --device <DEVICE>`,
`<INPUT>`. -/
def entryText (a : ArgSpec) : String :=
  if a.isPositional then a.display
  else
    let shortPart := match a.short, a.long with
      | some s, some _ => "-" ++ s.toString ++ ", "
      | some s, none => "-" ++ s.toString
      | none, _ => "    "
    let longPart := match a.long with
      | some l => "--" ++ l
      | none => ""
    shortPart ++ longPart ++ (if a.takesValue then " " ++ a.placeholder else "")

/-- Whether a section puts descriptions on their own lines: some description
does not fit beside the widest entry, when that entry takes more than two
fifths of the width. -/
def descriptionsBelow (entries : List ArgSpec) (longest : Nat) : Bool :=
  let taken := longest + 4
  entries.any fun a =>
    helpWidth ≥ taken && 2 * helpWidth < 5 * taken &&
      a.help.length + (defaultNote a).length > helpWidth - taken

/-- One section of a help page: its heading and entries. -/
def helpSection (heading : String) (entries : List ArgSpec) : String :=
  let longest := entries.foldl (fun m a => max m (entryWidth a)) 2
  let below := descriptionsBelow entries longest
  let line (a : ArgSpec) : String :=
    if below then entryIndent ++ entryText a ++ "\n" ++ nextLineIndent ++ describe a
    else entryIndent ++ entryText a ++ spaces (longest + 2 - entryWidth a) ++ describe a
  heading ++ ":\n" ++ "\n".intercalate (entries.map line)

/-- The section listing subcommands. -/
def commandSection (subcommands : List (String × String)) : String :=
  let longest := subcommands.foldl (fun m (n, _) => max m n.length) 2
  let line : String × String → String := fun (n, about) =>
    entryIndent ++ n ++ spaces (longest + 2 - n.length) ++ about
  "Commands:\n" ++ "\n".intercalate (subcommands.map line)

/-- The help page of a command. -/
def CommandSpec.helpPage (c : CommandSpec) : String :=
  let sections := (if c.subcommands.isEmpty then [] else [commandSection c.subcommands]) ++
    (if c.positionals.isEmpty then [] else [helpSection "Arguments" c.positionals]) ++
    (if c.options.isEmpty then [] else [helpSection "Options" c.options])
  c.about ++ "\n\nUsage: " ++ c.helpUsage ++ "\n\n" ++ "\n\n".intercalate sections ++ "\n"

/-- Why a command line was refused. -/
inductive ArgError where
  /-- A word that should name a subcommand names none; `similar` are the
  subcommands close to it, least close first. -/
  | unknownSubcommand (word : String) (similar : List String) (usage : String)
  /-- An argument that the command does not take, with the option close to
  it (`--print`, or `launch --print` for a subcommand's option) and whether
  to suggest passing it after `--`. -/
  | unexpectedArgument (arg : String) (similar : Option String) (inSubcommand : Option String)
      (asValueTip : Bool) (usage : String)
  /-- An option given without its value. -/
  | missingValue (arg : String)
  /-- A value its option cannot read. -/
  | invalidValue (value arg reason : String)
  /-- An argument given twice. -/
  | repeated (arg : String) (usage : String)
  /-- Required arguments that were not given. -/
  | missingRequired (args : List String) (usage : String)
  /-- A value attached to a switch. -/
  | unexpectedValue (value arg : String) (usage : String)
  /-- A subcommand named after `--`, where only values may stand. -/
  | escapedSubcommand (name : String) (usage : String)
  deriving Inhabited

namespace ArgError

/-- The first line's message. -/
def headline : ArgError → String
  | .unknownSubcommand w _ _ => "unrecognized subcommand '" ++ w ++ "'"
  | .unexpectedArgument a _ _ _ _ => "unexpected argument '" ++ a ++ "' found"
  | .missingValue a => "a value is required for '" ++ a ++ "' but none was supplied"
  | .invalidValue v a r => "invalid value '" ++ v ++ "' for '" ++ a ++ "': " ++ r
  | .repeated a _ => "the argument '" ++ a ++ "' cannot be used multiple times"
  | .missingRequired args _ =>
      "the following required arguments were not provided:" ++ String.join (args.map ("\n  " ++ ·))
  | .unexpectedValue v a _ => "unexpected value '" ++ v ++ "' for '" ++ a ++ "' found; no more were expected"
  | .escapedSubcommand n _ => "unexpected argument '" ++ n ++ "' found"

/-- The tips under the first line. -/
def tips : ArgError → List String
  | .unknownSubcommand _ [] _ => []
  | .unknownSubcommand _ [s] _ => ["a similar subcommand exists: '" ++ s ++ "'"]
  | .unknownSubcommand _ ss _ =>
      ["some similar subcommands exist: " ++ ", ".intercalate (ss.map fun s => "'" ++ s ++ "'")]
  | .unexpectedArgument a similar sub asValue _ =>
      (match similar, sub with
        | some s, none => ["a similar argument exists: '" ++ s ++ "'"]
        | _, _ => []) ++
      (if asValue then ["to pass '" ++ a ++ "' as a value, use '-- " ++ a ++ "'"] else []) ++
      (match similar, sub with
        | some s, some c => ["'" ++ c ++ " " ++ s ++ "' exists"]
        | _, _ => [])
  | .escapedSubcommand n _ => ["subcommand '" ++ n ++ "' exists; to use it, remove the '--' before it"]
  | _ => []

/-- The usage line shown, if any. -/
def usage? : ArgError → Option String
  | .unknownSubcommand _ _ u => some u
  | .unexpectedArgument _ _ _ _ u => some u
  | .repeated _ u => some u
  | .missingRequired _ u => some u
  | .unexpectedValue _ _ u => some u
  | .escapedSubcommand _ u => some u
  | _ => none

/-- The full text of the refusal. -/
def render (e : ArgError) : String :=
  let tips := e.tips
  "error: " ++ e.headline ++
    (if tips.isEmpty then "" else "\n" ++ String.join (tips.map ("\n  tip: " ++ ·))) ++
    (match e.usage? with | some u => "\n\nUsage: " ++ u | none => "") ++
    "\n\nFor more information, try '--help'.\n"

end ArgError

end Cli

end KernelLaunch
