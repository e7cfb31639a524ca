import KernelLaunch.Cli.Program
/-!
# The `wglaunch` program

The program runs its command line against the real working directory and
streams: files are read and written through the operating system, output is
flushed as it is written so that both streams keep their order, and the exit
status is the run's. The log filter comes from `WGLAUNCH_LOG`, else
`RUST_LOG`; log lines carry the `<time>` mark where a clock reading would go.
-/

namespace KernelLaunch

namespace Cli

/-- A failure of the operating system as the tool reports it. -/
def ioErrorOf (e : IO.Error) : IoError :=
  match e with
  | .otherError code _ => if code == 21 then .isDirectory else if code == 20 then .notDirectory else .notFound
  | .inappropriateType _ code _ => if code == 20 then .notDirectory else .isDirectory
  | _ => .notFound

/-- The real files and streams. -/
instance : Host IO where
  readFile p := do
    try pure (.ok (← IO.FS.readFile p)) catch e => pure (.error (ioErrorOf e))
  writeFile p t := do
    try
      IO.FS.writeFile p t
      pure (.ok ())
    catch e => pure (.error (ioErrorOf e))
  present p := do
    try
      let _ ← IO.FS.readFile p
      pure true
    catch e => pure (ioErrorOf e == .isDirectory)
  out t := do
    let h ← IO.getStdout
    h.putStr t
    h.flush
  err t := do
    let h ← IO.getStderr
    h.putStr t
    h.flush

end Cli

end KernelLaunch

/-- Runs `wglaunch` with the given arguments. -/
def main (args : List String) : IO UInt32 := do
  let own ← IO.getEnv "WGLAUNCH_LOG"
  let general ← IO.getEnv "RUST_LOG"
  let status ← KernelLaunch.Cli.runCommandLine (KernelLaunch.Cli.Setting.ofEnvironment own general) args
  pure status.toUInt32
