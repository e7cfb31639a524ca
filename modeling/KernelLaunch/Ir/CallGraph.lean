import KernelLaunch.Ir.Syntax
/-!
# Call graphs

The call graph of a module has a node per function, in order, and a node for
each callee that no function defines. Where two functions share a name, the
later one owns the name: calls reach it, and the edges of both start at it.
Reachability answers sorted sets of names.
-/

namespace KernelLaunch

/-- A call graph: node names and, for each node, the nodes it calls. -/
structure CallGraph where
  names : Array String
  succs : Array (List Nat)
  deriving Inhabited

namespace CallGraph

/-- The node that owns a name: the last function node of the name, else the
callee node added for it. -/
def nodeOf? (g : CallGraph) (name : String) : Option Nat :=
  (List.range g.names.size).reverse.find? (fun i => g.names[i]? == some name)

/-- Adds a call from the node `src` to the function named `callee`: the callee gets a node if it
has none, and `src` an edge to it if it has none. -/
def addCall (src : Nat) (g : CallGraph) (callee : String) : CallGraph :=
  let (g, dst) := match g.nodeOf? callee with
    | some i => (g, i)
    | none => ({ names := g.names.push callee, succs := g.succs.push [] }, g.names.size)
  let old := g.succs[src]?.getD []
  if old.contains dst then g else { g with succs := g.succs.set! src (old ++ [dst]) }

/-- The call graph of a module. -/
def build (m : Module) : CallGraph :=
  let base : CallGraph := { names := (m.functions.map (·.name)).toArray,
                            succs := Array.replicate m.functions.length [] }
  m.functions.foldl (fun g f => f.callees.foldl (addCall ((g.nodeOf? f.name).getD 0)) g) base

/-- The nodes reachable from `start` (itself included) along `step`. -/
def reach (n : Nat) (step : Nat → List Nat) (start : List Nat) : List Nat :=
  let rec go (fuel : Nat) (todo : List Nat) (seen : List Nat) : List Nat :=
    match fuel with
    | 0 => seen
    | fuel + 1 =>
      match todo with
      | [] => seen
      | x :: rest =>
          if seen.contains x then go fuel rest seen
          else go fuel (step x ++ rest) (x :: seen)
  go ((n + 1) * (n + 1) + start.length + 1) start []

/-- Inserts a name into a sorted list without repeats. -/
def insertName (s : String) : List String → List String
  | [] => [s]
  | t :: ts => if s < t then s :: t :: ts else if s = t then t :: ts else t :: insertName s ts

/-- The sorted names of a set of nodes. -/
def namesOf (g : CallGraph) (nodes : List Nat) : List String :=
  nodes.foldl (fun acc i => match g.names[i]? with | some s => insertName s acc | none => acc) []

/-- The callers of a node. -/
def preds (g : CallGraph) (j : Nat) : List Nat :=
  (List.range g.succs.size).filter fun i => (g.succs[i]?.getD []).contains j

/-- The name and every function transitively called from it. -/
def reachableFrom (g : CallGraph) (root : String) : List String :=
  match g.nodeOf? root with
  | some i => g.namesOf (reach g.names.size (fun k => g.succs[k]?.getD []) [i])
  | none => []

/-- Every function of the module that satisfies `p` or transitively calls one
that does. -/
def reaching (g : CallGraph) (m : Module) (p : Function → Bool) : List String :=
  let starts := (m.functions.filter p).filterMap fun f => g.nodeOf? f.name
  g.namesOf (reach g.names.size g.preds starts)

/-- Whether some node reaches itself through at least one call. -/
def isRecursive (g : CallGraph) : Bool :=
  (List.range g.names.size).any fun i =>
    let next := g.succs[i]?.getD []
    (reach g.names.size (fun k => g.succs[k]?.getD []) next).contains i

end CallGraph

end KernelLaunch
