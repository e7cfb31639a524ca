import KernelLaunch.Log.Filter
import KernelLaunch.Text.Style
/-!
# Log records on a terminal

Each record that passes the filter is one line: the time, dimmed; the level,
coloured and right-aligned in five columns; each scope it is shown in, bold,
with its values in braces and a dimmed colon after it; the message; and the
named values, each name in italics with a dimmed `=`.
-/

namespace KernelLaunch

/-- The level as shown: coloured, five columns wide. -/
def Level.badge : Level → String
  | .error => styled "31" "ERROR"
  | .warn => styled "33" " WARN"
  | .info => styled "32" " INFO"
  | .debug => styled "34" "DEBUG"
  | .trace => styled "35" "TRACE"

/-- Named values as shown: `name=value`, separated by spaces. -/
def showFields (fields : List (String × String)) : String :=
  " ".intercalate (fields.map fun (k, v) => styled "3" k ++ styled "2" "=" ++ v)

/-- A scope as shown, with the colon after it. -/
def Scope.badge (s : Scope) : String :=
  styled "1" s.name ++
    (if s.fields.isEmpty then "" else styled "1" "\x7b" ++ showFields s.fields ++ styled "1" "\x7d") ++
    styled "2" ":"

/-- The line of a record shown in the given scopes, at the given time. -/
def LogRecord.line (r : LogRecord) (time : String) (scopes : List Scope) : String :=
  styled "2" time ++ " " ++ r.level.badge ++ " " ++
    String.join (scopes.map Scope.badge) ++ (if scopes.isEmpty then "" else " ") ++
    r.message ++ (if r.fields.isEmpty then "" else " " ++ showFields r.fields) ++ "\n"

/-- The lines of the records a filter lets through. -/
def LogFilter.lines (f : LogFilter) (time : String) (log : Log) : String :=
  String.join (log.toList.filterMap fun r => (f.shownIn? r).map (r.line time))

/-- The filter named by the environment: the tool's own variable wins over
the general one when it reads as a filter, and without either only warnings
and errors pass. -/
def LogFilter.ofEnvironment (own general : Option String) : LogFilter :=
  match own.bind LogFilter.parse?, general.bind LogFilter.parse? with
  | some f, _ => f
  | none, some f => f
  | none, none => (LogFilter.parse? "warn").getD {}

end KernelLaunch
