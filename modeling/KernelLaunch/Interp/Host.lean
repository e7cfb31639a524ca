import KernelLaunch.Interp.Machine
/-!
# Host arguments

What a host hands to a kernel before it runs: plain integers, fresh zeroed
buffers, buffers with given contents, or pointers it already holds. Placing
an argument allocates its buffer in the machine, in argument order, so the
regions are numbered as the arguments come.
-/

namespace KernelLaunch

/-- One argument as the host describes it. -/
inductive HostArg where
  /-- An integer passed as is. -/
  | int (n : Nat)
  /-- A fresh buffer of `size` zero bytes in an address space. -/
  | zeroed (space size : Nat)
  /-- A fresh buffer holding the given bytes. -/
  | filled (space : Nat) (bytes : ByteArray)
  /-- A pointer the host already holds. -/
  | pointer (p : Pointer)
  deriving Inhabited

namespace Machine

/-- Allocates what an argument needs and answers the value the kernel sees. -/
def place : HostArg → Exec Value
  | .int n => pure (.int n)
  | .zeroed space size => do pure (.ptr (← alloc space size))
  | .filled space bytes => do pure (.ptr (← allocBytes space bytes))
  | .pointer p => pure (.ptr p)

/-- Places the arguments in order. -/
def placeAll (args : List HostArg) : Exec (List Value) := args.mapM place

/-- Places the arguments, calls the function on them, and answers its result
or why it stopped; the machine keeps what the call left behind. -/
def runFunction (name : String) (args : List HostArg) : Exec (Except Stop (Option Value)) := do
  let vs ← placeAll args
  attempt (call (maxCallDepth + 1) name vs)

end Machine

end KernelLaunch
