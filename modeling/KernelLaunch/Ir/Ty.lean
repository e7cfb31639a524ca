import KernelLaunch.Word
/-!
# Value types

The types of kernel values: integer and floating-point scalars, pointers
tagged with a numeric address space, fixed-length arrays and structures laid
out by the C rules. Sizes depend on the target's pointer width, given as
`ptrBytes`.

Main statements: a structure is aligned to the largest alignment of its
fields, and its size, when it fits in a word, is a multiple of that
alignment.
-/

namespace KernelLaunch

/-- The private address space: each invocation's own stack. -/
def privateSpace : Nat := 0

/-- A value type. Address spaces and counts are words; a pointer's address
space is a 32-bit word. -/
inductive Ty where
  | i8
  | i16
  | i32
  | i64
  | f16
  | f32
  | f64
  | ptr (space : Nat)
  | array (elem : Ty) (count : Nat)
  | struct (fields : List Ty)
  deriving Repr, Inhabited

namespace Ty

mutual
/-- Decidable equality of types, field lists included. -/
def beq : Ty → Ty → Bool
  | .i8, .i8 | .i16, .i16 | .i32, .i32 | .i64, .i64 => true
  | .f16, .f16 | .f32, .f32 | .f64, .f64 => true
  | .ptr a, .ptr b => a == b
  | .array e n, .array e' n' => beq e e' && n == n'
  | .struct fs, .struct gs => beqList fs gs
  | _, _ => false

/-- Pointwise equality of two field lists. -/
def beqList : List Ty → List Ty → Bool
  | [], [] => true
  | f :: fs, g :: gs => beq f g && beqList fs gs
  | _, _ => false
end

instance : BEq Ty := ⟨beq⟩

/-- The integer type that holds a `size_t` of the given bit width. -/
def sizeT (width : Nat) : Ty := if width = 32 then .i32 else .i64

/-- Whether the type is an array or a structure. -/
def isAggregate : Ty → Bool
  | .array .. | .struct .. => true
  | _ => false

/-- The address space of a pointer type. -/
def pointerSpace : Ty → Option Nat
  | .ptr s => some s
  | _ => none

/-- The size of a scalar or pointer; aggregates answer zero here and are
measured by `checkedSize`. -/
def scalarSize (ptrBytes : Nat) : Ty → Nat
  | .i8 => 1
  | .i16 | .f16 => 2
  | .i32 | .f32 => 4
  | .i64 | .f64 => 8
  | .ptr _ => ptrBytes
  | _ => 0

mutual
/-- Natural alignment: an array aligns as its element, a structure as its
most aligned field (one when it has none), anything else as its size (at
least one). -/
def align (ptrBytes : Nat) : Ty → Nat
  | .array e _ => align ptrBytes e
  | .struct fs => alignFields ptrBytes fs
  | t => Nat.max (scalarSize ptrBytes t) 1

/-- The largest alignment of a field list, one for the empty list. -/
def alignFields (ptrBytes : Nat) : List Ty → Nat
  | [] => 1
  | f :: fs => Nat.max (align ptrBytes f) (alignFields ptrBytes fs)
end

mutual
/-- Store size in bytes, or `none` when it does not fit in a word. Fields are
placed in order, each at the next multiple of its alignment, and the end is
rounded up to the structure's alignment. -/
def checkedSize (ptrBytes : Nat) : Ty → Option Nat
  | .array e n => (checkedSize ptrBytes e).bind fun s => Word.checkedMul s n
  | .struct fs =>
      (placeFields ptrBytes fs 0).bind fun e => Word.checkedAlignTo e (alignFields ptrBytes fs)
  | t => some (scalarSize ptrBytes t)

/-- The end offset after placing the fields one after another from `offset`. -/
def placeFields (ptrBytes : Nat) : List Ty → Nat → Option Nat
  | [], offset => some offset
  | f :: fs, offset =>
      (Word.checkedAlignTo offset (align ptrBytes f)).bind fun start =>
        (checkedSize ptrBytes f).bind fun s =>
          (Word.checkedAdd start s).bind fun next => placeFields ptrBytes fs next
end

/-- Store size in bytes, the largest word when it does not fit. -/
def size (ptrBytes : Nat) (t : Ty) : Nat := (checkedSize ptrBytes t).getD Word.max

mutual
/-- The textual form: `i32`, `ptr`, `ptr addrspace(1)`, `[4 x i8]`, `{i8, i64}`. -/
def render : Ty → String
  | .i8 => "i8"
  | .i16 => "i16"
  | .i32 => "i32"
  | .i64 => "i64"
  | .f16 => "f16"
  | .f32 => "f32"
  | .f64 => "f64"
  | .ptr 0 => "ptr"
  | .ptr s => "ptr addrspace(" ++ toString s ++ ")"
  | .array e n => "[" ++ toString n ++ " x " ++ render e ++ "]"
  | .struct fs => "\x7b" ++ renderFields fs ++ "\x7d"

/-- Field types separated by commas. -/
def renderFields : List Ty → String
  | [] => ""
  | [f] => render f
  | f :: fs => render f ++ ", " ++ renderFields fs
end

theorem one_le_alignFields (ptrBytes : Nat) (fs : List Ty) : 1 ≤ alignFields ptrBytes fs := by
  cases fs with
  | nil => simp [alignFields]
  | cons f fs =>
      simp only [alignFields]
      exact Nat.le_trans (one_le_alignFields ptrBytes fs) (Nat.le_max_right _ _)

/-- Every type is aligned to at least one byte, so rounding never divides by zero. -/
theorem one_le_align (ptrBytes : Nat) : (t : Ty) → 1 ≤ align ptrBytes t
  | .array e _ => by simp only [align]; exact one_le_align ptrBytes e
  | .struct fs => by simp only [align]; exact one_le_alignFields ptrBytes fs
  | .i8 | .i16 | .i32 | .i64 | .f16 | .f32 | .f64 | .ptr _ => by
      simp only [align]; exact Nat.le_max_right _ _

/-- A structure that fits in a word has a size that is a multiple of its alignment. -/
theorem checkedSize_struct_mod {ptrBytes : Nat} {fs : List Ty} {s : Nat}
    (h : checkedSize ptrBytes (.struct fs) = some s) : s % alignFields ptrBytes fs = 0 := by
  simp only [checkedSize, Option.bind_eq_some_iff] at h
  obtain ⟨e, _, he⟩ := h
  exact (Word.checkedAlignTo_spec (one_le_alignFields ptrBytes fs) he).2.1

end Ty

end KernelLaunch
