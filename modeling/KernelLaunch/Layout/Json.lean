import KernelLaunch.Layout.Cache
import KernelLaunch.Ir.Decode
/-!
# Layouts as JSON

The lock-file form of layouts and caches, written and read. A slot kind is a
word (`scalar`, `pointer`, `by_value`) or an object for local memory; a cache
is an object whose `layouts` member maps kernel names to layouts and may be
left out.
-/

namespace KernelLaunch

/-- The JSON form of a slot kind. -/
def SlotKind.toJson : SlotKind → Json
  | .scalar => .str "scalar"
  | .pointer => .str "pointer"
  | .byValue => .str "by_value"
  | .localMemory a => .obj [("local", .obj [("launcher_allocates", .bool a)])]

/-- The JSON form of a slot. -/
def ArgSlot.toJson (s : ArgSlot) : Json :=
  .obj [("index", .nat s.index), ("offset", .nat s.offset), ("size", .nat s.size), ("align", .nat s.align),
    ("kind", s.kind.toJson)]

/-- The JSON form of a layout. -/
def ArgBufferLayout.toJson (l : ArgBufferLayout) : Json :=
  .obj [("kernel", .str l.kernel), ("slots", .arr (l.slots.map ArgSlot.toJson)), ("size", .nat l.size),
    ("align", .nat l.align), ("fingerprint", .str l.fingerprint)]

/-- The JSON form of a cache. -/
def LayoutCache.toJson (c : LayoutCache) : Json :=
  .obj [("layouts", .obj (c.layouts.map fun (k, l) => (k, l.toJson)))]

namespace Decode

open Reader

/-- The content of a local-memory slot kind. -/
def localKind : Record (Option Bool) SlotKind := {
  expecting := "struct variant SlotKind::Local"
  names := ["launcher_allocates"]
  init := none
  isSet := fun _ s => s.isSome
  read := fun _ _ => do pure (some (← bool))
  absent := fun i _ => short i
  finish := fun s => do pure (.localMemory (← need s "launcher_allocates")) }

/-- A slot kind. -/
def slotKind : Decoder SlotKind :=
  variant ["scalar", "pointer", "by_value", "local"] fun i acc =>
    match i with
    | 0 => unitVariant .scalar acc
    | 1 => unitVariant .pointer acc
    | 2 => unitVariant .byValue acc
    | _ => recordVariant localKind acc

/-- Fields of a slot read so far. -/
structure SlotFields where
  index : Option Nat := none
  offset : Option Nat := none
  size : Option Nat := none
  align : Option Nat := none
  kind : Option SlotKind := none

/-- A slot; every field is required. -/
def argSlot : Decoder ArgSlot := record {
  expecting := "struct ArgSlot"
  names := ["index", "offset", "size", "align", "kind"]
  init := ({} : SlotFields)
  isSet := fun i s => match i with
    | 0 => s.index.isSome
    | 1 => s.offset.isSome
    | 2 => s.size.isSome
    | 3 => s.align.isSome
    | _ => s.kind.isSome
  read := fun i s => match i with
    | 0 => do pure { s with index := some (← word32) }
    | 1 => do pure { s with offset := some (← word) }
    | 2 => do pure { s with size := some (← word) }
    | 3 => do pure { s with align := some (← word) }
    | _ => do pure { s with kind := some (← slotKind) }
  absent := fun i _ => short i
  finish := fun s => do
    pure { index := ← need s.index "index", offset := ← need s.offset "offset", size := ← need s.size "size",
           align := ← need s.align "align", kind := ← need s.kind "kind" } }

/-- Fields of a layout read so far. -/
structure LayoutFields where
  kernel : Option String := none
  slots : Option (List ArgSlot) := none
  size : Option Nat := none
  align : Option Nat := none
  fingerprint : Option String := none

/-- A layout; every field is required. -/
def argBufferLayout : Decoder ArgBufferLayout := record {
  expecting := "struct ArgBufferLayout"
  names := ["kernel", "slots", "size", "align", "fingerprint"]
  init := ({} : LayoutFields)
  isSet := fun i s => match i with
    | 0 => s.kernel.isSome
    | 1 => s.slots.isSome
    | 2 => s.size.isSome
    | 3 => s.align.isSome
    | _ => s.fingerprint.isSome
  read := fun i s => match i with
    | 0 => do pure { s with kernel := some (← string) }
    | 1 => do pure { s with slots := some (← list argSlot) }
    | 2 => do pure { s with size := some (← word) }
    | 3 => do pure { s with align := some (← word) }
    | _ => do pure { s with fingerprint := some (← string) }
  absent := fun i _ => short i
  finish := fun s => do
    pure { kernel := ← need s.kernel "kernel", slots := ← need s.slots "slots", size := ← need s.size "size",
           align := ← need s.align "align", fingerprint := ← need s.fingerprint "fingerprint" } }

/-- A cache; without `layouts` it is empty. -/
def layoutCache : Decoder LayoutCache := record {
  expecting := "struct LayoutCache"
  names := ["layouts"]
  init := (none : Option LayoutCache)
  isSet := fun _ s => s.isSome
  read := fun _ _ => do pure (some (LayoutCache.ofEntries (← members argBufferLayout)))
  absent := fun _ s => .ok s
  finish := fun s => .ok (s.getD {}) }

end Decode

end KernelLaunch
