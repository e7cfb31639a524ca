import KernelLaunch.Log
import KernelLaunch.Text.Pattern
/-!
# Log filters

A filter is a comma-separated list of directives; empty items are skipped.
A directive names an area, a scope, or both, then an optional level:

* `warn`, `DEBUG`, `3`: a level for every area;
* `wglaunch::workgroup=debug`: a level for an area, which covers itself and
  every area whose name it begins; an area without a level gets every level;
* `[kernel]=trace`, `[kernel{name=k.*}]=debug`, `[{name}]=info`: a level for
  the records written inside the scopes of that name, or with those named
  values, or whose named values match the patterns given.

A directive is read in one left-to-right pass over its text with the white
space at both ends taken off; the positions it finds are taken in the text
with that white space kept. So `info ` names an area `info ` and `  warn`
one named `  warn`: neither is a level.

Directives without a scope or value pattern are plain: a record passes them
when the most specific one that covers it allows its level (the longest area
first, then the one naming more values). Directives with a scope or named
values are scope directives: a scope they cover is always shown, and the
records written inside it pass up to the highest level among the directives
whose patterns all match the scope's values.

Nothing passes above the filter's ceiling: the most verbose level of any
directive, or every level when some directive has a value pattern. A scope
opened above the ceiling is not shown at all, and nothing inside it is let
through by it.

A text that is not a list of directives is no filter at all.
-/

namespace KernelLaunch

/-- How verbose a filter lets records be: up to a level, or nothing. -/
inductive LevelFilter where
  | off
  | upTo (l : Level)
  deriving DecidableEq, Repr, Inhabited

namespace LevelFilter

/-- Rank by verbosity: nothing is 0, errors 1, traces 5. -/
def rank : LevelFilter → Nat
  | .off => 0
  | .upTo l => l.rank + 1

/-- Whether a record of the level passes. -/
def allows (f : LevelFilter) (l : Level) : Bool := l.rank + 1 ≤ f.rank

/-- The more verbose of two filters. -/
def most (a b : LevelFilter) : LevelFilter := if b.rank > a.rank then b else a

/-- Reads a level name, in any case, or its number from 0 (nothing) to 5
(traces); a number may carry a plus sign and leading zeros. The empty text
is the error level. -/
def parse? (s : String) : Option LevelFilter :=
  let digits := if s.startsWith "+" then (s.drop 1).toString else s
  let byNumber : Option LevelFilter :=
    if !digits.isEmpty && digits.all Char.isDigit then
      match digits.toNat! with
      | 0 => some .off
      | 1 => some (.upTo .error)
      | 2 => some (.upTo .warn)
      | 3 => some (.upTo .info)
      | 4 => some (.upTo .debug)
      | 5 => some (.upTo .trace)
      | _ => none
    else none
  match byNumber with
  | some f => some f
  | none =>
      match s.toLower with
      | "" => some (.upTo .error)
      | "error" => some (.upTo .error)
      | "warn" => some (.upTo .warn)
      | "info" => some (.upTo .info)
      | "debug" => some (.upTo .debug)
      | "trace" => some (.upTo .trace)
      | "off" => some .off
      | _ => none

end LevelFilter

/-- Whether a text reads as a number: an optional sign, then `inf`,
`infinity` or `nan` in any case, or digits with at most one point and at
least one digit, then an optional exponent `e` with an optional sign and
digits. Every integer reads this way. -/
def readsAsNumber (s : String) : Bool :=
  let body := match s.toList with
    | '+' :: r => r
    | '-' :: r => r
    | r => r
  let word := (String.ofList body).toLower
  let exponentOk : List Char → Bool := fun cs =>
    match cs with
    | [] => true
    | e :: r =>
        if e == 'e' || e == 'E' then
          let r := match r with
            | '+' :: t => t
            | '-' :: t => t
            | t => t
          !r.isEmpty && r.all Char.isDigit
        else false
  let whole := body.takeWhile Char.isDigit
  let afterWhole := body.dropWhile Char.isDigit
  let mantissaOk := match afterWhole with
    | '.' :: r =>
        let frac := r.takeWhile Char.isDigit
        (whole.length + frac.length > 0) && exponentOk (r.dropWhile Char.isDigit)
    | r => !whole.isEmpty && exponentOk r
  word == "inf" || word == "infinity" || word == "nan" || mantissaOk

/-- The value a directive asks a named value to have: a truth value or a
number, which no value shown as text matches, or a pattern. -/
inductive ValueMatch where
  | literal (text : String)
  | pattern (p : Pattern)
  deriving Inhabited

namespace ValueMatch

/-- Reads a value: `true`, `false` and numbers are literal, anything else
must be a pattern. -/
def parse? (s : String) : Option ValueMatch :=
  if s == "true" || s == "false" || readsAsNumber s then some (.literal s)
  else (Pattern.parse? s).map .pattern

/-- The text the value was read from, with its kind. -/
def key : ValueMatch → Bool × String
  | .literal s => (false, s)
  | .pattern p => (true, p.source)

/-- Whether a value shown as the text matches. -/
def matchesText : ValueMatch → String → Bool
  | .literal _, _ => false
  | .pattern p, t => p.accepts t

end ValueMatch

/-- A named value a directive asks for; without a value only the name must
exist. -/
structure FieldMatch where
  name : String
  value : Option ValueMatch
  deriving Inhabited

/-- Reads `name` or `name=value`; the name is kept as written and only the
text up to a second `=` is the value. -/
def FieldMatch.parse? (s : String) : Option FieldMatch :=
  match s.splitOn "=" with
  | name :: v :: _ => (ValueMatch.parse? v).map fun m => { name, value := some m }
  | name :: [] => some { name, value := none }
  | [] => some { name := "", value := none }

/-- One directive of a filter. `scope` is the scope name written in
brackets, which may be empty. -/
structure Directive where
  target : Option String := none
  scope : Option String := none
  fields : List FieldMatch := []
  level : LevelFilter := .upTo .trace
  deriving Inhabited

/-- Where the pass over a directive's text stands: the positions are byte
offsets where the part being read starts. -/
inductive DirectiveState where
  | start
  | levelOrTarget (start : Nat)
  | span (start : Nat)
  | field (start : Nat)
  | fields
  | target
  | level (start : Nat)
  | complete
  deriving Inhabited

/-- The text between two byte offsets; `none` when an offset falls inside a
character. -/
def byteSlice (s : String) (a b : Nat) : Option String :=
  String.fromUTF8? (s.toUTF8.extract a b)

namespace Directive

/-- The level and area of a directive that is a single word: a level when it
reads as one, else an area with every level. -/
def levelOrTarget (d : Directive) (word : String) : Directive :=
  if word.isEmpty then { d with level := .upTo .trace, target := none }
  else match LevelFilter.parse? word with
    | some l => { d with level := l, target := none }
    | none => { d with level := .upTo .trace, target := some word }

/-- The level written after `=`: every level when empty. -/
def levelAfter? (word : String) : Option LevelFilter :=
  if word.isEmpty then some (.upTo .trace) else LevelFilter.parse? word

/-- Adds a named value read from a text, which must not be empty. -/
def addField? (d : Directive) (text : String) : Option Directive :=
  if text.isEmpty then none
  else (FieldMatch.parse? text).map fun m => { d with fields := d.fields ++ [m] }

/-- One character of the pass at byte offset `i`; `src` is the text with its
white space. -/
def step (src : String) (d : Directive) : DirectiveState → Nat → Char →
    Option (Directive × DirectiveState)
  | .start, i, '[' => some (d, .span (i + 1))
  | .start, i, c =>
      if c == '-' || c == ':' || c == '_' || Text.isAlphanumeric c then some (d, .levelOrTarget i)
      else none
  | .levelOrTarget s, i, '=' =>
      (byteSlice src s i).map fun t => ({ d with target := some t }, .level (i + 1))
  | .levelOrTarget s, i, '[' =>
      (byteSlice src s i).map fun t => ({ d with target := some t }, .span (i + 1))
  | .levelOrTarget s, _, ',' =>
      (byteSlice src s src.utf8ByteSize).map fun w => (d.levelOrTarget w, .complete)
  | .levelOrTarget s, _, _ => some (d, .levelOrTarget s)
  | .target, i, '=' => some (d, .level (i + 1))
  | .span s, i, ']' =>
      (byteSlice src s i).map fun n => ({ d with scope := some n }, .target)
  | .span s, i, '{' =>
      (byteSlice src s i).map fun n =>
        ({ d with scope := if n.isEmpty then none else some n }, .field (i + 1))
  | .span s, _, _ => some (d, .span s)
  | .field s, i, '}' => do
      let text ← byteSlice src s i
      let d ← d.addField? text
      pure (d, .fields)
  | .field s, i, ',' => do
      let text ← byteSlice src s i
      let d ← d.addField? text
      pure (d, .field (i + 1))
  | .field s, _, _ => some (d, .field s)
  | .fields, _, ']' => some (d, .target)
  | .level s, i, ',' => do
      let word ← byteSlice src s i
      let l ← levelAfter? word
      pure ({ d with level := l }, .complete)
  | .level s, _, _ => some (d, .level s)
  | _, _, _ => none

/-- Runs the pass over the characters, each with its byte offset. -/
def walk (src : String) : List Char → Nat → Directive → DirectiveState →
    Option (Directive × DirectiveState)
  | [], _, d, st => some (d, st)
  | c :: cs, i, d, st => do
      let (d, st) ← step src d st i c
      walk src cs (i + c.utf8Size) d st

/-- Reads one directive. -/
def parse? (src : String) : Option Directive := do
  let (d, st) ← walk src (Text.trim src).toList 0 {} .start
  match st with
  | .levelOrTarget s =>
      let word ← byteSlice src s src.utf8ByteSize
      pure (d.levelOrTarget word)
  | .level s =>
      let word ← byteSlice src s src.utf8ByteSize
      let l ← levelAfter? word
      pure { d with level := l }
  | .target => pure d
  | .complete => pure d
  | _ => none

/-- Whether the directive needs a scope: it names one, or named values. -/
def isDynamic (d : Directive) : Bool := d.scope.isSome || !d.fields.isEmpty

/-- Whether the directive also acts as a plain one: it names no scope and
asks no value. -/
def isStatic (d : Directive) : Bool := d.scope.isNone && d.fields.all (·.value.isNone)

/-- Whether the directive has a value pattern. -/
def hasValues (d : Directive) : Bool := d.fields.any (·.value.isSome)

/-- Whether the directive covers an area. -/
def coversTarget (d : Directive) (target : String) : Bool :=
  match d.target with
  | some t => target.startsWith t
  | none => true

/-- The names of the values a directive asks for. -/
def names (d : Directive) : List String := d.fields.map (·.name)

/-- Orders options with the absent one first. -/
def compareOption {α : Type} (cmp : α → α → Ordering) : Option α → Option α → Ordering
  | none, none => .eq
  | none, some _ => .lt
  | some _, none => .gt
  | some a, some b => cmp a b

/-- Orders lists of names lexicographically. -/
def compareNames : List String → List String → Ordering
  | [], [] => .eq
  | [], _ :: _ => .lt
  | _ :: _, [] => .gt
  | a :: as, b :: bs =>
      match compare a b with
      | .eq => compareNames as bs
      | o => o

/-- How specific a plain directive is: the length of its area (none below
any), then the number of names, then the area and names themselves. Two
directives that compare equal cover the same records. -/
def specificity (a b : Directive) : Ordering :=
  let byLength := compareOption compare (a.target.map String.utf8ByteSize) (b.target.map String.utf8ByteSize)
  let byCount := compare a.fields.length b.fields.length
  let byText := compareOption compare a.target b.target
  match byLength, byCount, byText with
  | .eq, .eq, .eq => compareNames a.names b.names
  | .eq, .eq, o => o
  | .eq, o, _ => o
  | o, _, _ => o

/-- Whether two scope directives differ only in their level. -/
def sameReach (a b : Directive) : Bool :=
  a.target == b.target && a.scope == b.scope &&
    a.fields.map (fun m => (m.name, m.value.map ValueMatch.key)) ==
      b.fields.map (fun m => (m.name, m.value.map ValueMatch.key))

/-- Whether a scope directive covers a scope: its area, its name and every
value it names. -/
def coversScope (d : Directive) (s : Scope) : Bool :=
  d.coversTarget s.target && d.scope.all (· == s.name) &&
    d.fields.all fun m => s.fields.any (·.1 == m.name)

/-- Whether every value pattern of a directive matches the scope's value of
that name. -/
def matchesScope (d : Directive) (s : Scope) : Bool :=
  d.fields.all fun m =>
    match m.value with
    | none => true
    | some v => s.fields.any fun (k, shown) => k == m.name && v.matchesText shown

end Directive

/-- A parsed filter: its plain directives, most specific first, and its
scope directives, each with the most verbose level among them. -/
structure LogFilter where
  plain : List Directive := []
  plainMost : LevelFilter := .off
  inScope : List Directive := []
  inScopeMost : LevelFilter := .off
  deriving Inhabited

namespace LogFilter

/-- Puts a plain directive in its place: before the first less specific one,
replacing one that covers the same records. -/
def insertPlain (d : Directive) : List Directive → List Directive
  | [] => [d]
  | e :: rest =>
      match d.specificity e with
      | .eq => d :: rest
      | .gt => d :: e :: rest
      | .lt => e :: insertPlain d rest

/-- Adds a scope directive, replacing one that differs only in level. -/
def insertInScope (d : Directive) : List Directive → List Directive
  | [] => [d]
  | e :: rest => if d.sameReach e then d :: rest else e :: insertInScope d rest

/-- Adds a plain directive. The level it brings counts even if a later one
replaces it. -/
def addPlain (f : LogFilter) (d : Directive) : LogFilter :=
  { f with plain := insertPlain d f.plain, plainMost := f.plainMost.most d.level }

/-- Adds a scope directive. -/
def addInScope (f : LogFilter) (d : Directive) : LogFilter :=
  { f with inScope := insertInScope d f.inScope, inScopeMost := f.inScopeMost.most d.level }

/-- Builds a filter from directives: first the plain ones, then the scope
directives, which also count as plain when they name no scope and ask no
value. -/
def ofDirectives (ds : List Directive) : LogFilter :=
  let plain := ds.filter (!·.isDynamic)
  let needScope := ds.filter (·.isDynamic)
  let f := plain.foldl addPlain {}
  let f := (needScope.filter (·.isStatic)).foldl addPlain f
  needScope.foldl addInScope f

/-- Reads a filter; `none` when some directive cannot be read. -/
def parse? (text : String) : Option LogFilter := do
  let words := (text.splitOn ",").filter (!·.isEmpty)
  let ds ← words.mapM Directive.parse?
  pure (ofDirectives ds)

/-- The most verbose level anything may pass at. -/
def ceiling (f : LogFilter) : LevelFilter :=
  if f.inScope.any (·.hasValues) then .upTo .trace else f.plainMost.most f.inScopeMost

/-- Whether the most specific plain directive that covers an area lets a
level through; for a record, `names` are its value names, which the
directive's names must be among. -/
def allowsPlainly (f : LogFilter) (target : String) (names : Option (List String)) (level : Level) : Bool :=
  let covers (d : Directive) : Bool :=
    d.coversTarget target && (names.all fun ns => d.names.all ns.contains)
  match f.plain.find? covers with
  | some d => d.level.allows level
  | none => false

/-- The level a scope lets through inside it, when some scope directive
covers it: the highest among the covering directives whose patterns match,
or nothing. -/
def scopeLevel? (f : LogFilter) (s : Scope) : Option LevelFilter :=
  match f.inScope.filter (·.coversScope s) with
  | [] => none
  | ds => some (ds.foldl (fun acc d => if d.matchesScope s then acc.most d.level else acc) .off)

/-- Whether the levels of the open scopes let a level through. -/
def allowsInScope (f : LogFilter) (inside : List LevelFilter) (level : Level) : Bool :=
  !f.inScope.isEmpty && f.inScopeMost.allows level && inside.any (·.allows level)

/-- Opens a record's scopes in order: a scope is shown when it is within the
ceiling and a scope directive covers it, or the scopes open around it or the
plain directives let it through. Returns the scopes shown and the levels
their scope directives let through. -/
def openScopes (f : LogFilter) : List Scope → List Scope × List LevelFilter → List Scope × List LevelFilter
  | [], acc => acc
  | s :: rest, (shown, inside) =>
      let level? := f.scopeLevel? s
      let enabled := f.ceiling.allows s.level &&
        (level?.isSome || f.allowsInScope inside s.level ||
          (f.plainMost.allows s.level && f.allowsPlainly s.target none s.level))
      if enabled then
        openScopes f rest (shown ++ [s], match level? with
          | some l => inside ++ [l]
          | none => inside)
      else openScopes f rest (shown, inside)

/-- Whether a record passes, and the scopes it is shown in. -/
def shownIn? (f : LogFilter) (r : LogRecord) : Option (List Scope) :=
  if !f.ceiling.allows r.level then none
  else
    let (shown, inside) := f.openScopes r.scopes ([], [])
    let plainly := f.plainMost.allows r.level &&
      f.allowsPlainly r.target (some ("message" :: r.fields.map (·.1))) r.level
    if f.allowsInScope inside r.level || plainly then some shown else none

end LogFilter

end KernelLaunch
