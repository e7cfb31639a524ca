/-!
# The working directory

The command line reads and writes files relative to its working directory.
A `Workspace` is that directory as data: the text of every file under it, by
relative path. Directories are not stored; a directory exists exactly when
some file lies below it, and the directory itself always exists.

Paths are resolved the way the operating system resolves them: empty and `.`
parts are dropped, `..` steps back out of a directory, and every part before
the last must be a directory. Above the working directory there is always a
directory, holding nothing this model knows of. A failure carries the
system's own wording.
-/

namespace KernelLaunch

namespace Cli

/-- Why a file operation failed. -/
inductive IoError where
  | notFound
  | isDirectory
  | notDirectory
  deriving DecidableEq, Repr, Inhabited

/-- The operating system's wording of a failure. -/
def IoError.message : IoError → String
  | .notFound => "No such file or directory (os error 2)"
  | .isDirectory => "Is a directory (os error 21)"
  | .notDirectory => "Not a directory (os error 20)"

/-- The files under a directory: relative path and text, sorted by path. -/
structure Workspace where
  files : List (String × String) := []
  deriving Inhabited

namespace Workspace

/-- Whether a relative path names a file. -/
def isFile (w : Workspace) (key : String) : Bool := w.files.any (·.1 == key)

/-- Whether a relative path names a directory: the working directory itself,
or a directory with a file below it. -/
def isDir (w : Workspace) (key : String) : Bool :=
  key.isEmpty || w.files.any fun (k, _) => k.startsWith (key ++ "/")

/-- Where a path leads. -/
inductive Place where
  /-- A file or directory under the working directory, by its parts. -/
  | below (parts : List String)
  /-- A directory above the working directory: one always exists. -/
  | above
  /-- A name in a directory above the working directory; no such file is
  known. -/
  | aboveEntry
  deriving DecidableEq, Repr, Inhabited

/-- Resolves the parts of a path, in order, against the files: `..` steps
out of the directory before it, and out of the working directory into the
directory above. -/
def resolveParts (w : Workspace) : Place → List String → Except IoError Place
  | here, [] => .ok here
  | here, part :: rest =>
      if part.isEmpty then resolveParts w here rest
      else match here with
        | .aboveEntry => .error .notFound
        | .above =>
            if part == "." || part == ".." then resolveParts w .above rest
            else resolveParts w .aboveEntry rest
        | .below acc =>
            if part == "." then resolveParts w here rest
            else if part == ".." then
              match acc.reverse with
              | [] => resolveParts w .above rest
              | _ :: up =>
                  let dir := "/".intercalate acc
                  if w.isFile dir then .error .notDirectory
                  else if !w.isDir dir then .error .notFound
                  else resolveParts w (.below up.reverse) rest
            else resolveParts w (.below (acc ++ [part])) rest

/-- Where a path leads, checking that every part before the last is a
directory; a file under the working directory is named by its relative
path. -/
def locate (w : Workspace) (path : String) : Except IoError Place := do
  if path.isEmpty || path.startsWith "/" then throw .notFound
  match ← w.resolveParts (.below []) (path.splitOn "/") with
  | .below parts =>
      let prefixes := (List.range parts.length).map fun n => "/".intercalate (parts.take n)
      for p in prefixes.drop 1 do
        if w.isFile p then throw .notDirectory
        if !w.isDir p then throw .notFound
      let key := "/".intercalate parts
      if path.endsWith "/" && w.isFile key then throw .notDirectory
      pure (.below parts)
  | other => pure other

/-- The text of a file. -/
def read (w : Workspace) (path : String) : Except IoError String := do
  match ← w.locate path with
  | .below parts =>
      let key := "/".intercalate parts
      match w.files.find? (·.1 == key) with
      | some (_, text) => pure text
      | none => throw (if w.isDir key then .isDirectory else .notFound)
  | .above => throw .isDirectory
  | .aboveEntry => throw .notFound

/-- Whether a path names a file or a directory. -/
def present (w : Workspace) (path : String) : Bool :=
  match w.locate path with
  | .ok (.below parts) =>
      let key := "/".intercalate parts
      w.isFile key || w.isDir key
  | .ok .above => true
  | .ok .aboveEntry => false
  | .error _ => false

/-- Puts a file in its place in path order. -/
def insertSorted (key text : String) : List (String × String) → List (String × String)
  | [] => [(key, text)]
  | (k, t) :: rest =>
      if key < k then (key, text) :: (k, t) :: rest
      else if key == k then (key, text) :: rest
      else (k, t) :: insertSorted key text rest

/-- Creates or replaces a file; its directory must exist. -/
def write (w : Workspace) (path text : String) : Except IoError Workspace := do
  match ← w.locate path with
  | .below parts =>
      let key := "/".intercalate parts
      if w.isDir key || path.endsWith "/" then throw .isDirectory
      pure { files := insertSorted key text w.files }
  | .above => throw .isDirectory
  | .aboveEntry =>
      -- The file lands outside the working directory, which is all it holds.
      if path.endsWith "/" then throw .isDirectory else pure w

/-- A workspace holding the given files. -/
def ofFiles (files : List (String × String)) : Workspace :=
  { files := files.foldl (fun acc (k, t) => insertSorted k t acc) [] }

end Workspace

end Cli

end KernelLaunch
