import KernelLaunch.Layout.ArgBuffer
import KernelLaunch.Log
/-!
# Recorded layouts

Host code is built against the argument-buffer layouts of a lock file. The
cache holds one layout per kernel, sorted by kernel name. A newly computed
layout is checked against the recorded one: when both come from the same
signature (equal fingerprints) they must be equal, so a change of the layout
rule is caught instead of silently moving arguments. A layout from a changed
signature replaces the old one, with a warning.
-/

namespace KernelLaunch

/-- Layouts by kernel name, sorted by name, one per kernel. -/
structure LayoutCache where
  layouts : List (String × ArgBufferLayout) := []
  deriving Inhabited

namespace LayoutCache

/-- Inserts or replaces the entry of a key in a sorted list. -/
def insertSorted (k : String) (v : ArgBufferLayout) :
    List (String × ArgBufferLayout) → List (String × ArgBufferLayout)
  | [] => [(k, v)]
  | (k', v') :: rest =>
      if k < k' then (k, v) :: (k', v') :: rest
      else if k = k' then (k, v) :: rest
      else (k', v') :: insertSorted k v rest

/-- The cache with the layout stored under a kernel name. -/
def insert (c : LayoutCache) (k : String) (l : ArgBufferLayout) : LayoutCache :=
  { layouts := insertSorted k l c.layouts }

/-- A cache from entries in the order read; a later entry of a name wins. -/
def ofEntries (entries : List (String × ArgBufferLayout)) : LayoutCache :=
  entries.foldl (fun c (k, l) => c.insert k l) {}

/-- The layout recorded for a kernel. -/
def get? (c : LayoutCache) (k : String) : Option ArgBufferLayout := (c.layouts.find? (·.1 == k)).map (·.2)

/-- The number of recorded kernels. -/
def size (c : LayoutCache) : Nat := c.layouts.length

/-- Whether nothing is recorded. -/
def isEmpty (c : LayoutCache) : Bool := c.layouts.isEmpty

/-- The recorded kernels, sorted. -/
def kernels (c : LayoutCache) : List String := c.layouts.map (·.1)

/-- The note that says where two layouts of one signature first differ: the
first pair of differing slots, else the buffer sizes. -/
def differenceNote (was now : ArgBufferLayout) : Option String :=
  match (was.slots.zip now.slots).find? (fun (a, b) => a != b) with
  | some (a, b) => some ("arg" ++ toString a.index ++ " was recorded at offset " ++ toString a.offset ++
      " (size " ++ toString a.size ++ "), computed at offset " ++ toString b.offset ++
      " (size " ++ toString b.size ++ ")")
  | none =>
      if was.size != now.size then
        some ("buffer was recorded as " ++ toString was.size ++ " bytes, computed as " ++ toString now.size)
      else none

/-- Fails when a layout of the same kernel and fingerprint was recorded with
a different content. -/
def check (c : LayoutCache) (l : ArgBufferLayout) : Except Diagnostic Unit :=
  match c.get? l.kernel with
  | none => .ok ()
  | some was =>
      if was.fingerprint != l.fingerprint || was == l then .ok ()
      else
        let d := Diagnostic.error ("argument buffer layout of '" ++ l.kernel ++
          "' disagrees with the recorded layout")
        let d := match differenceNote was l with
          | some n => d.withNote n
          | none => d
        .error (d.withHelp "regenerate the layout lock file and rebuild host code against it")

/-- Records a layout after checking it, replacing an entry for an older
signature, and answers the records written on the way. -/
def record (c : LayoutCache) (l : ArgBufferLayout) : Except Diagnostic (LayoutCache × Log) := do
  c.check l
  let replaced : Log := match c.get? l.kernel with
    | some old =>
        if old.fingerprint != l.fingerprint then
          #[{ level := .warn, target := layoutTarget, message := "signature changed, replacing recorded layout",
              fields := [("kernel", l.kernel)] }]
        else #[]
    | none => #[]
  let noted := replaced.push
    { level := .debug, target := layoutTarget, message := "recorded argument buffer layout",
      fields := [("kernel", l.kernel), ("size", toString l.size)] }
  pure (c.insert l.kernel l, noted)

end LayoutCache

end KernelLaunch
