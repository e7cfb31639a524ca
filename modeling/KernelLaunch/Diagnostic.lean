import KernelLaunch.Text.Quoted
/-!
# Diagnostics

A diagnostic reports a problem found while loading inputs or transforming a
module: its severity, message, byte span in the source, notes and an
optional help line. Its one-line text is `error: message` (or `warning:`),
followed by each note and the help on lines of their own.
-/

namespace KernelLaunch

/-- A byte range of a source text. The empty range at zero stands for no place. -/
structure Span where
  start : Nat
  stop : Nat
  deriving Repr, BEq, DecidableEq, Inhabited

namespace Span

/-- The span that stands for no place. -/
def dummy : Span := ⟨0, 0⟩

/-- Whether the span stands for no place. -/
def isDummy (s : Span) : Bool := s.start == 0 && s.stop == 0

/-- The span of a line without its surrounding white space, for a line that
starts at byte `lineStart` of its text. -/
def ofLine (lineStart : Nat) (line : String) : Span :=
  let lead := line.utf8ByteSize - (Text.trimStart line).utf8ByteSize
  let start := lineStart + lead
  ⟨start, start + (Text.trim line).utf8ByteSize⟩

end Span

/-- How serious a diagnostic is. -/
inductive Severity where
  | error
  | warning
  deriving Repr, BEq, DecidableEq, Inhabited

/-- The word of a severity. -/
def Severity.word : Severity → String
  | .error => "error"
  | .warning => "warning"

/-- A diagnostic. -/
structure Diagnostic where
  severity : Severity
  message : String
  span : Span
  notes : List String := []
  help : Option String := none
  deriving Repr, Inhabited

namespace Diagnostic

/-- An error at a span. -/
def error (message : String) (span : Span := Span.dummy) : Diagnostic :=
  { severity := .error, message, span }

/-- A warning at a span. -/
def warning (message : String) (span : Span := Span.dummy) : Diagnostic :=
  { severity := .warning, message, span }

/-- The diagnostic with a note added after the others. -/
def withNote (d : Diagnostic) (note : String) : Diagnostic := { d with notes := d.notes ++ [note] }

/-- The diagnostic with its help line set. -/
def withHelp (d : Diagnostic) (help : String) : Diagnostic := { d with help := some help }

/-- The plain text: `severity: message`, then `  note: …` lines and a `  help: …` line. -/
def display (d : Diagnostic) : String :=
  d.severity.word ++ ": " ++ d.message ++
    String.join (d.notes.map fun n => "\n  note: " ++ n) ++
    (match d.help with | some h => "\n  help: " ++ h | none => "")

end Diagnostic

end KernelLaunch
