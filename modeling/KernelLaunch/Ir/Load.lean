import KernelLaunch.Ir.Decode
import KernelLaunch.Ir.Encode
import KernelLaunch.Diagnostic
/-!
# Loading modules from JSON text

A module is read from its JSON text; a failure becomes a diagnostic whose
span is the byte at the reader's line and column.
-/

namespace KernelLaunch

/-- The byte offset of a 1-based line and a column, capped at the text's end;
a line past the end gives the end. -/
def lineColumnOffset (source : String) (line column : Nat) : Nat :=
  let len := source.utf8ByteSize
  -- lines including their line feeds
  let lines := (source.splitOn "\n").map (fun l => l.utf8ByteSize + 1)
  let lines := if source.endsWith "\n" then lines.dropLast else lines
  let rec go (i : Nat) (offset : Nat) : List Nat → Nat
    | [] => len
    | n :: ns => if i + 1 == line then Nat.min (offset + (column - 1)) len else go (i + 1) (offset + n) ns
  if source.isEmpty then len else go 0 0 lines

namespace Module

/-- Reads a module from its JSON text. -/
def ofJsonText (source : String) : Except Diagnostic Module :=
  match Reader.ofText Decode.module source with
  | .ok m => .ok m
  | .error e =>
      let (line, column) := e.place.getD (0, 0)
      let offset := lineColumnOffset source line column
      let stop := Nat.min (offset + 1) source.utf8ByteSize
      .error (Diagnostic.error ("invalid module: " ++ e.message) ⟨offset, stop⟩)

end Module

end KernelLaunch
