import KernelLaunch.Text.Quoted
/-!
# Log records

What the pass reports as it goes: records with a severity, the area of the
library that wrote them, the scopes they were written in, a message and named
values. The values are kept as the text they are shown with. Whoever runs the
pass decides which records to show; the pass only collects them, in order.
-/

namespace KernelLaunch

/-- Severity, from the most to the least severe. -/
inductive Level where
  | error
  | warn
  | info
  | debug
  | trace
  deriving DecidableEq, Repr, Inhabited

namespace Level

/-- Rank by verbosity: errors are 0, traces 4. -/
def rank : Level → Nat
  | .error => 0
  | .warn => 1
  | .info => 2
  | .debug => 3
  | .trace => 4

end Level

/-- A scope a record is written in: a name and named values. -/
structure Scope where
  name : String
  level : Level
  target : String
  fields : List (String × String)
  deriving Inhabited

/-- One record. `scopes` lists the open scopes, outermost first. -/
structure LogRecord where
  level : Level
  target : String
  scopes : List Scope := []
  message : String
  fields : List (String × String) := []
  deriving Inhabited

/-- Records in the order they were written. -/
abbrev Log := Array LogRecord

/-- The area of the library the pass itself writes from. -/
def passTarget : String := "wglaunch::workgroup"

/-- The area that writes layout records. -/
def layoutTarget : String := "wglaunch::workgroup::layout"

/-- The area that writes body and output records. -/
def privatizeTarget : String := "wglaunch::workgroup::privatize"

/-- The area that writes launcher records. -/
def launcherTarget : String := "wglaunch::workgroup::launcher"

/-- A text value shown through its debugging form: quoted and escaped. -/
def debugText (s : String) : String := Text.literal s

end KernelLaunch
