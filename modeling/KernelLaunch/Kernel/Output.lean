import KernelLaunch.Kernel.Body
/-!
# Device-side output

On devices that print into a buffer, every formatted output of a body must
know where the buffer is: its address, the address of the write position,
and its capacity. A body reads the three from its context; a helper that
prints, directly or through the helpers it calls, gets a clone that takes
them as three trailing parameters, and every call to a printing helper is
sent to its clone with the three values appended.

Clones are shared by all the kernels of a module: a helper is cloned once,
and a clone an earlier run left in the module is used as it is.
-/

namespace KernelLaunch

/-- The names of the output clones made so far, by helper name, sorted. -/
structure OutputClones where
  clones : List (String × String) := []
  deriving Inhabited

namespace OutputClones

/-- The clone of a helper. -/
def get? (c : OutputClones) (helper : String) : Option String :=
  (c.clones.find? (·.1 == helper)).map (·.2)

/-- Whether a helper has a clone. -/
def contains (c : OutputClones) (helper : String) : Bool := (c.get? helper).isSome

/-- Notes the clone of a helper. -/
def insert (c : OutputClones) (helper clone : String) : OutputClones :=
  let rec go : List (String × String) → List (String × String)
    | [] => [(helper, clone)]
    | (k, v) :: rest =>
        if helper < k then (helper, clone) :: (k, v) :: rest
        else if helper = k then (helper, clone) :: rest
        else (k, v) :: go rest
  { clones := go c.clones }

/-- The number of clones. -/
def size (c : OutputClones) : Nat := c.clones.length

end OutputClones

/-- The name of a helper's output clone. -/
def cloneName (helper : String) : String := helper ++ ".printf"

/-- The three parameters a clone takes for the output buffer. -/
def bufferParams (c : DeviceConfig) : List Param :=
  [{ name := "_printf_buffer", ty := c.globalPtr }, { name := "_printf_buffer_position", ty := c.globalPtr },
    { name := "_printf_buffer_capacity", ty := .i32 }]

/-- Sends the outputs of a function to the buffer: each output gets the
buffer's three operands, and each call of a printing helper with a clone
calls the clone with the three operands appended. -/
def routeOutput (f : Function) (printing : List String) (clones : OutputClones) (buffer : List Operand) :
    Function :=
  let triple := match buffer with
    | [a, b, c] => some (a, b, c)
    | _ => none
  let route : Inst → Inst
    | .printf fmt args _ => .printf fmt args triple
    | i@(.call d callee args) =>
        if printing.contains callee then
          match clones.get? callee with
          | some clone => .call d clone (args ++ buffer)
          | none => i
        else i
    | i => i
  { f with body := f.body.map (Inst.rewriteList route (fun _ => true)) }

namespace OutputClones

/-- What threading does with one function the kernel `root` reaches, given the clones noted so far
and the helpers still to clone: nothing for the kernel itself, for a function that does not print
and for a helper with a clone already; a clone an earlier run left in the module is noted as it
is; a helper with a body is noted and listed to be cloned. -/
def noteClone (m : Module) (root : String) (printing : List String) :
    OutputClones × List String → String → OutputClones × List String
  | (cache, pending), name =>
    if name == root || !printing.contains name || cache.contains name then (cache, pending)
    else
      let existing := match m.get? (cloneName name) with
        | some f => f.attrs.derivedFrom == some name
        | none => false
      if existing then (cache.insert name (cloneName name), pending)
      else match m.get? name with
        | some f => if f.isDeclaration then (cache, pending)
            else (cache.insert name (cloneName name), pending ++ [name])
        | none => (cache, pending)

/-- Routes the outputs of `body`, derived from the kernel `root` and reading
its context through `ctx`, into the buffer, cloning the printing helpers the
kernel reaches that have no clone yet. Answers the updated clones, the body,
the new clones in name order, and the records written. -/
def thread (cache : OutputClones) (m : Module) (g : CallGraph) (root : String) (body : Function)
    (ctx : Operand) (c : DeviceConfig) (l : ContextLayout) :
    Except Fault (OutputClones × Function × List Function × Log) := do
  let prints := match m.get? root with
    | some f => f.performsOutput m g
    | none => false
  if !prints then return (cache, body, [], #[])
  let printing := g.reaching m (·.contains Inst.isPrintf)
  let (cache, pending) := (g.reachableFrom root).foldl (noteClone m root printing) (cache, [])
  let created := pending.filterMap fun name => (m.get? name).map fun helper =>
    let n := helper.params.length
    let clone : Function := { helper with
      name := (cache.get? name).getD (cloneName name),
      params := helper.params ++ bufferParams c,
      attrs := { helper.attrs with kernel := false, derivedFrom := some name } }
    routeOutput clone printing cache [.param n, .param (n + 1), .param (n + 2)]
  let start ← body.regCount?
  let (buffer, prelude) ← [ContextField.printfBuffer, .printfBufferPosition, .printfBufferCapacity].foldlM
    (fun (acc, b) f => do
      let (r, b) ← loadFromContext b c l ctx f 0
      if let some f := b.fault then throw f
      pure (acc ++ [Operand.reg r], b)) (([] : List Operand), Builder.startingAt start)
  let routed := routeOutput body printing cache buffer
  let body := { routed with body := some (prelude.finish ++ routed.insts) }
  let log : Log := if created.isEmpty then #[]
    else #[{ level := .debug, target := privatizeTarget, message := "cloned printing helpers",
             fields := [("root", debugText root), ("clones", toString created.length)] }]
  return (cache, body, created, log)

end OutputClones

end KernelLaunch
