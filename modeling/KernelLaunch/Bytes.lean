import KernelLaunch.Fault
import KernelLaunch.Word
/-!
# Little-endian words in byte buffers

Words are stored least significant byte first, in as many bytes as the
field is wide: one, two or four bytes hold the word truncated to that
width, and any other width holds all eight bytes of the word at its start,
so a field narrower than eight bytes of another width is a fault.
-/

namespace KernelLaunch

namespace Bytes

/-- The `n` low bytes of a word, least significant first. -/
def littleEndian (value n : Nat) : List UInt8 :=
  (List.range n).map fun i => (value / Nat.pow 256 i % 256).toUInt8

/-- The word of little-endian bytes. -/
def ofLittleEndian (bytes : List UInt8) : Nat :=
  bytes.foldr (fun b acc => b.toNat + 256 * acc) 0

/-- Replaces the bytes of `buf` from `start` on by `data`. -/
def overwrite (buf : ByteArray) (start : Nat) (data : List UInt8) : ByteArray :=
  data.zipIdx.foldl (fun b (x, i) => b.set! (start + i) x) buf

/-- A buffer of `n` zero bytes. -/
def zeros (n : Nat) : ByteArray := Nat.repeat (fun b => b.push 0) n (ByteArray.emptyWithCapacity n)

/-- The bytes `buf[start, start + n)`, as a list. -/
def slice (buf : ByteArray) (start n : Nat) : List UInt8 :=
  (List.range n).map fun i => buf[start + i]?.getD 0

/-- Checks that `[start, start + len)` lies within a buffer of `size` bytes. -/
def checkRange (size start len : Nat) : Except Fault Unit :=
  if start + len > Word.max then .error .addOverflow
  else if start + len > size then .error (.rangeEnd (start + len) size)
  else .ok ()

/-- Writes a word into the field `buf[start, start + width)`. -/
def writeWord (buf : ByteArray) (start width value : Nat) : Except Fault ByteArray := do
  checkRange buf.size start width
  if width == 1 || width == 2 || width == 4 then
    pure (overwrite buf start (littleEndian value width))
  else if width < 8 then throw (.rangeEnd 8 width)
  else pure (overwrite buf start (littleEndian value 8))

/-- Reads the word of the field `buf[start, start + width)`. -/
def readWord (buf : ByteArray) (start width : Nat) : Except Fault Nat := do
  checkRange buf.size start width
  if width == 1 || width == 2 || width == 4 then
    pure (ofLittleEndian (slice buf start width))
  else if width < 8 then throw (.rangeEnd 8 width)
  else pure (ofLittleEndian (slice buf start 8))

/-- A field of a word in a fresh buffer of its own width. -/
def encodeWord (width value : Nat) : Except Fault ByteArray :=
  writeWord (ByteArray.mk (Array.replicate width 0)) 0 width value

/-- Lower-case hexadecimal text of bytes, two digits each. -/
def hex (bytes : ByteArray) : String :=
  let digit (n : Nat) : Char := if n < 10 then Char.ofNat (48 + n) else Char.ofNat (87 + n)
  String.ofList (bytes.toList.flatMap fun b => [digit (b.toNat / 16), digit (b.toNat % 16)])

/-- Bytes of lower-case or upper-case hexadecimal text, two digits each. -/
def ofHex? (s : String) : Option ByteArray :=
  let value (c : Char) : Option Nat :=
    if c.isDigit then some (c.toNat - 48)
    else if 'a' ≤ c && c ≤ 'f' then some (c.toNat - 87)
    else if 'A' ≤ c && c ≤ 'F' then some (c.toNat - 55)
    else none
  let rec go : List Char → Option (List UInt8)
    | [] => some []
    | [_] => none
    | a :: b :: rest => do
        let x ← value a
        let y ← value b
        let tl ← go rest
        pure ((x * 16 + y).toUInt8 :: tl)
  (go s.toList).map fun l => ByteArray.mk l.toArray

end Bytes

end KernelLaunch
