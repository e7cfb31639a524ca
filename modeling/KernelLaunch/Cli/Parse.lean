import KernelLaunch.Cli.Grammar
import KernelLaunch.Cli.Similarity
import KernelLaunch.Word
/-!
# Reading a command line

The words after a command are read left to right. A word starting with `--`
names an option, with its value after `=` or in the next word; a word
starting with one `-` is a cluster of short flags, the last of which may take
the rest of the word as its value; `--` makes every later word positional;
every other word is the value an option waits for, or the next positional.

A value is read when the next argument is met, or at the end, so a bad value
is reported before anything after it. The exceptions are a word that names
nothing, which is reported at once, and a request for help or the version,
which is answered at once.
-/

namespace KernelLaunch

namespace Cli

/-- Reads the digits of a decimal number from the left: a character that is
no digit and a value beyond `hi` or below `lo` are refused as soon as they
are met. -/
def readDigits (lo hi : Int) (negative : Bool) : Int → List Char → Except String Int
  | acc, [] => .ok acc
  | acc, c :: rest =>
      if !c.isDigit then .error "invalid digit found in string"
      else
        let d : Int := (c.toNat - '0'.toNat : Nat)
        let next := if negative then acc * 10 - d else acc * 10 + d
        if next > hi then .error "number too large to fit in target type"
        else if next < lo then .error "number too small to fit in target type"
        else readDigits lo hi negative next rest

/-- Reads a decimal integer between `lo` and `hi` with an optional sign (a
minus only when `lo` is negative), with the standard reader's wording. -/
def readInteger (lo hi : Int) (s : String) : Except String Int :=
  match s.toList with
  | [] => .error "cannot parse integer from empty string"
  | ['+'] | ['-'] => .error "invalid digit found in string"
  | '+' :: rest => readDigits lo hi false 0 rest
  | '-' :: rest => if lo < 0 then readDigits lo hi true 0 rest else .error "invalid digit found in string"
  | cs => readDigits lo hi false 0 cs

/-- One value read from the command line. -/
inductive ArgValue where
  | text (s : String)
  | number (n : Nat)
  | switch
  deriving DecidableEq, Repr, Inhabited

/-- The arguments given, by id, in the order first given, with their values. -/
structure Matches where
  entries : List (String × List ArgValue) := []
  deriving Inhabited

namespace Matches

/-- Whether an argument was given. -/
def contains (m : Matches) (id : String) : Bool := m.entries.any (·.1 == id)

/-- The values of an argument. -/
def values (m : Matches) (id : String) : List ArgValue :=
  ((m.entries.find? (·.1 == id)).map (·.2)).getD []

/-- Adds values to an argument, noting it as given. -/
def add (m : Matches) (id : String) (vs : List ArgValue) : Matches :=
  if m.contains id then { entries := m.entries.map fun (k, old) => if k == id then (k, old ++ vs) else (k, old) }
  else { entries := m.entries ++ [(id, vs)] }

/-- The ids given, in order. -/
def used (m : Matches) : List String := m.entries.map (·.1)

/-- The text of an argument, else its default. -/
def text (m : Matches) (id : String) (default : String) : String :=
  match m.values id with
  | [.text s] => s
  | _ => default

/-- The text of an argument, if given. -/
def text? (m : Matches) (id : String) : Option String :=
  match m.values id with
  | [.text s] => some s
  | _ => none

/-- Whether a switch was given. -/
def flag (m : Matches) (id : String) : Bool := m.contains id

/-- The numbers given to an argument. -/
def numbers (m : Matches) (id : String) : List Nat :=
  (m.values id).filterMap fun v => match v with
    | .number n => some n
    | _ => none

end Matches

/-- Why reading stopped before the end. -/
inductive Interrupt where
  | help
  | version
  | refused (e : ArgError)
  deriving Inhabited

/-- How an argument was named when given. -/
inductive Named where
  | long
  | short
  | position
  deriving DecidableEq, Inhabited

/-- An argument whose values are collected but not yet read. -/
structure Pending where
  arg : ArgSpec
  named : Named
  raw : List String
  deriving Inhabited

/-- Where reading is. -/
structure ReadState where
  found : Matches := {}
  pending : Option Pending := none
  /-- The option waiting for its value in the next word. -/
  awaiting : Option ArgSpec := none
  position : Nat := 0
  /-- Whether `--` was met: every later word is a positional value, and an
  option still waiting for its value is left without one. -/
  trailing : Bool := false
  deriving Inhabited

/-- Reads one value of an argument. -/
def readValue (a : ArgSpec) (raw : String) : Except ArgError ArgValue :=
  let refuse (reason : String) : Except ArgError ArgValue := .error (.invalidValue raw a.display reason)
  match a.kind with
  | .text => .ok (.text raw)
  | .path => if raw.isEmpty then .error (.missingValue a.display) else .ok (.text raw)
  | .count =>
      match readInteger 0 Word.max raw with
      | .ok n => .ok (.number n.toNat)
      | .error r => refuse r
  | .count32 =>
      match readInteger (-(Int.pow 2 63)) (Int.pow 2 63 - 1) raw with
      | .ok n =>
          if n < 0 || n > 4294967295 then
            .error (.invalidValue (toString n) a.display (toString n ++ " is not in 0..=4294967295"))
          else .ok (.number n.toNat)
      | .error r => refuse r

/-- Records an occurrence of an argument with its words: checks that a value
came, refuses a second occurrence of a single argument, reads the values. -/
def record (c : CommandSpec) (st : ReadState) (a : ArgSpec) (raw : List String) :
    Except Interrupt ReadState := do
  if a.takesValue && raw.isEmpty then throw (.refused (.missingValue a.display))
  match a.action with
  | .help => throw .help
  | .version => throw .version
  | .flag =>
      if st.found.contains a.id then throw (.refused (.repeated a.display c.helpUsage))
      pure { st with found := st.found.add a.id [.switch] }
  | .set =>
      if st.found.contains a.id then throw (.refused (.repeated a.display c.helpUsage))
      let vs ← (raw.mapM (readValue a)).mapError .refused
      pure { st with found := st.found.add a.id vs }
  | .append =>
      let words := match a.delimiter with
        | some d => raw.flatMap fun (w : String) => w.splitOn d.toString
        | none => raw
      let vs ← (words.mapM (readValue a)).mapError .refused
      pure { st with found := st.found.add a.id vs }

/-- Reads the values collected for the pending argument. -/
def resolve (c : CommandSpec) (st : ReadState) : Except Interrupt ReadState :=
  match st.pending with
  | none => .ok st
  | some p => record c { st with pending := none } p.arg p.raw

/-- Reads the pending argument before reporting a word that names nothing;
what goes wrong there is not reported. -/
def resolveQuietly (c : CommandSpec) (st : ReadState) : ReadState :=
  match resolve c st with
  | .ok st => st
  | .error _ => { st with pending := none }

/-- An occurrence of an argument: the pending one is read first. -/
def occur (c : CommandSpec) (st : ReadState) (a : ArgSpec) (raw : List String) :
    Except Interrupt ReadState := do
  let st ← resolve c st
  record c st a raw

/-- The option a long name stands for. -/
def findLong (c : CommandSpec) (name : String) : Option ArgSpec := c.options.find? (·.long == some name)

/-- The option a short flag stands for. -/
def findShort (c : CommandSpec) (ch : Char) : Option ArgSpec := c.options.find? (·.short == some ch)

/-- The long names of a command, in order. -/
def longNames (c : CommandSpec) : List String := c.options.filterMap (·.long)

/-- Splits `name=value`. -/
def splitAttached (s : String) : String × Option String :=
  match s.splitOn "=" with
  | [name] => (name, none)
  | name :: rest => (name, some ("=".intercalate rest))
  | [] => (s, none)

/-- Reads a word that names a long option. -/
def longWord (c : CommandSpec) (st : ReadState) (body : String) : Except Interrupt ReadState := do
  let (name, attached) := splitAttached body
  match findLong c name with
  | some a =>
      if a.takesValue then
        match attached with
        | some v =>
            let st ← occur c st a [v]
            pure { st with awaiting := none }
        | none =>
            let st ← resolve c st
            pure { st with pending := some ⟨a, .long, []⟩, awaiting := some a }
      else
        match attached with
        | some v =>
            let st := resolveQuietly c st
            throw (.refused (.unexpectedValue v a.display (c.usageFor (st.found.used ++ [a.id]))))
        | none =>
            let st ← occur c st a []
            pure { st with awaiting := none }
  | none =>
      let st := resolveQuietly c st
      let similar := closestName? name (longNames c)
      let used := st.found.used ++ ((similar.bind (findLong c)).map (·.id)).toList
      let tip := similar.isNone && !st.trailing && !c.positionals.isEmpty
      throw (.refused (.unexpectedArgument ("--" ++ name) (similar.map ("--" ++ ·)) none tip (c.usageFor used)))

/-- Reads a cluster of short flags. -/
def shortWord (c : CommandSpec) (st : ReadState) : List Char → Except Interrupt ReadState
  | [] => .ok { st with awaiting := none }
  | ch :: rest =>
      match findShort c ch with
      | some a =>
          if !a.takesValue then do
            let st ← occur c st a []
            shortWord c st rest
          else if rest.isEmpty then do
            let st ← resolve c st
            pure { st with pending := some ⟨a, .short, []⟩, awaiting := some a }
          else do
            let word := String.ofList rest
            let value := if word.startsWith "=" then word.drop 1 |>.toString else word
            let st ← occur c st a [value]
            pure { st with awaiting := none }
      | none =>
          let st := resolveQuietly c st
          let tip := !st.trailing && !c.positionals.isEmpty
          .error (.refused (.unexpectedArgument ("-" ++ ch.toString) none none tip c.helpUsage))

/-- Reads a word that is a value: for the option waiting, else for the next
positional. -/
def valueWord (c : CommandSpec) (st : ReadState) (word : String) : Except Interrupt ReadState := do
  match st.awaiting, st.pending with
  | some _, some p => pure { st with pending := some { p with raw := p.raw ++ [word] }, awaiting := none }
  | _, _ =>
      match c.positionals[st.position]? with
      | some a =>
          let st ← resolve c st
          pure { st with pending := some ⟨a, .position, [word]⟩, position := st.position + 1, awaiting := none }
      | none =>
          let st := resolveQuietly c st
          let flagLike := word.startsWith "-" && word.length > 1
          let tip := !st.trailing && !c.positionals.isEmpty && flagLike
          throw (.refused (.unexpectedArgument word none none tip c.helpUsage))

/-- Reads one word. -/
def readWord (c : CommandSpec) (st : ReadState) (word : String) : Except Interrupt ReadState :=
  if st.trailing then valueWord c st word
  else if word == "--" then .ok { st with trailing := true, awaiting := none }
  else if word.startsWith "--" then longWord c st (word.drop 2).toString
  else if word.startsWith "-" && word.length > 1 then shortWord c st (word.drop 1).toString.toList
  else valueWord c st word

/-- Reads the words after a command, then checks that every required
argument was given. -/
def readCommand (c : CommandSpec) (words : List String) : Except Interrupt Matches := do
  let st ← words.foldlM (readWord c) {}
  let st ← resolve c st
  let missing := c.args.filter fun a => a.required && !st.found.contains a.id
  if missing.isEmpty then return st.found
  let listed := missing.filter (!·.isPositional) ++ missing.filter (·.isPositional)
  throw (.refused (.missingRequired (listed.map (·.display))
    (c.smartUsage (st.found.used ++ missing.map (·.id)))))

end Cli

end KernelLaunch
