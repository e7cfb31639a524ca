/-!
# BLAKE3 digests

The BLAKE3 hash of a byte string, in its default unkeyed mode with a 32-byte
output. The input is cut into chunks of 1024 bytes, each chunk into blocks of
64 bytes that are compressed in turn; chunk chaining values are then joined
pairwise in a binary tree whose left subtree always holds the largest power of
two of chunks that leaves the right one non-empty. The root compression is
flagged as such, and its first eight words, written little-endian, are the
digest.
-/

namespace KernelLaunch

namespace Blake3

/-- The initial chaining value, the first words of the fractional parts of the
square roots of the first primes. -/
def iv : Array UInt32 :=
  #[0x6A09E667, 0xBB67AE85, 0x3C6EF372, 0xA54FF53A, 0x510E527F, 0x9B05688C, 0x1F83D9AB, 0x5BE0CD19]

/-- The order in which message words are taken in the next round. -/
def permutation : Array Nat := #[2, 6, 3, 10, 7, 0, 4, 13, 1, 11, 12, 5, 9, 14, 15, 8]

/-- The flag of the first block of a chunk. -/
def chunkStart : UInt32 := 1
/-- The flag of the last block of a chunk. -/
def chunkEnd : UInt32 := 2
/-- The flag of a node joining two subtrees. -/
def parent : UInt32 := 4
/-- The flag of the compression that yields the digest. -/
def root : UInt32 := 8

/-- The bytes of one chunk. -/
def chunkLen : Nat := 1024

/-- The bytes of one block. -/
def blockLen : Nat := 64

/-- Rotates a word right by `n` bits, `0 < n < 32`. -/
def rotr (x : UInt32) (n : UInt32) : UInt32 := (x >>> n) ||| (x <<< (32 - n))

/-- The quarter-round mixing two message words into four state words. -/
def mix (s : Array UInt32) (a b c d : Nat) (mx my : UInt32) : Array UInt32 := Id.run do
  let mut s := s
  s := s.set! a (s[a]! + s[b]! + mx)
  s := s.set! d (rotr (s[d]! ^^^ s[a]!) 16)
  s := s.set! c (s[c]! + s[d]!)
  s := s.set! b (rotr (s[b]! ^^^ s[c]!) 12)
  s := s.set! a (s[a]! + s[b]! + my)
  s := s.set! d (rotr (s[d]! ^^^ s[a]!) 8)
  s := s.set! c (s[c]! + s[d]!)
  s := s.set! b (rotr (s[b]! ^^^ s[c]!) 7)
  return s

/-- One round: the columns, then the diagonals. -/
def round (s : Array UInt32) (m : Array UInt32) : Array UInt32 :=
  let s := mix s 0 4 8 12 m[0]! m[1]!
  let s := mix s 1 5 9 13 m[2]! m[3]!
  let s := mix s 2 6 10 14 m[4]! m[5]!
  let s := mix s 3 7 11 15 m[6]! m[7]!
  let s := mix s 0 5 10 15 m[8]! m[9]!
  let s := mix s 1 6 11 12 m[10]! m[11]!
  let s := mix s 2 7 8 13 m[12]! m[13]!
  mix s 3 4 9 14 m[14]! m[15]!

/-- The message words in the order of the next round. -/
def permute (m : Array UInt32) : Array UInt32 := permutation.map fun i => m[i]!

/-- The compression function: sixteen output words from a chaining value, a
block of sixteen words, a counter, the block's byte count and flags. -/
def compress (cv : Array UInt32) (block : Array UInt32) (counter : Nat) (len : Nat) (flags : UInt32) :
    Array UInt32 :=
  let s0 := cv ++ #[iv[0]!, iv[1]!, iv[2]!, iv[3]!,
    (counter % Nat.pow 2 32).toUInt32, (counter / Nat.pow 2 32 % Nat.pow 2 32).toUInt32, len.toUInt32, flags]
  let (s, _) := (List.range 7).foldl (fun (s, m) _ => (round s m, permute m)) (s0, block)
  (List.range 16).toArray.map fun i => if i < 8 then s[i]! ^^^ s[i + 8]! else s[i]! ^^^ cv[i - 8]!

/-- The little-endian words of a block, padded with zero bytes. -/
def words (data : ByteArray) (start len : Nat) : Array UInt32 :=
  (List.range 16).toArray.map fun w =>
    (List.range 4).foldl (fun acc k =>
      let i := 4 * w + k
      let byte : UInt8 := if i < len then data.get! (start + i) else 0
      acc ||| (byte.toUInt32 <<< (8 * k).toUInt32)) 0

/-- A compression waiting for its last flags: the root flag, or none when it
only gives a chaining value. -/
structure Pending where
  cv : Array UInt32
  block : Array UInt32
  counter : Nat
  len : Nat
  flags : UInt32

/-- The chaining value a pending compression yields inside the tree. -/
def Pending.chainingValue (p : Pending) : Array UInt32 :=
  (compress p.cv p.block p.counter p.len p.flags).extract 0 8

/-- The last compression of the chunk `data[start, start + len)` numbered
`index`; an empty chunk is one empty block. -/
def chunk (data : ByteArray) (start len index : Nat) : Pending :=
  let blocks := max 1 ((len + blockLen - 1) / blockLen)
  let cv := (List.range (blocks - 1)).foldl (fun cv b =>
    let flags := if b == 0 then chunkStart else 0
    (compress cv (words data (start + b * blockLen) blockLen) index blockLen flags).extract 0 8) iv
  let last := (blocks - 1) * blockLen
  let lastFlags := (if blocks == 1 then chunkStart else 0) ||| chunkEnd
  { cv, block := words data (start + last) (len - last), counter := index, len := len - last,
    flags := lastFlags }

/-- The largest power of two below `n`, for `n > 1`. -/
def leftChunks (n : Nat) : Nat := Id.run do
  let mut p := 1
  for _ in List.range n do
    if 2 * p < n then p := 2 * p
  return p

/-- The pending root compression of the subtree over `data[start, start + len)`,
whose first chunk is numbered `index`. `fuel` bounds the depth of the tree. -/
def subtree (data : ByteArray) : Nat → Nat → Nat → Nat → Pending
  | 0, start, len, index => chunk data start len index
  | fuel + 1, start, len, index =>
    if len ≤ chunkLen then chunk data start len index
    else
      let chunks := (len + chunkLen - 1) / chunkLen
      let left := leftChunks chunks * chunkLen
      let l := (subtree data fuel start left index).chainingValue
      let r := (subtree data fuel (start + left) (len - left) (index + left / chunkLen)).chainingValue
      { cv := iv, block := l ++ r, counter := 0, len := blockLen, flags := parent }

/-- The 32-byte digest. -/
def digest (data : ByteArray) : ByteArray :=
  let p := subtree data data.size 0 data.size 0
  let out := (compress p.cv p.block 0 p.len (p.flags ||| root)).extract 0 8
  ByteArray.mk (out.toList.flatMap (fun w => (List.range 4).map fun k => (w >>> (8 * k).toUInt32).toUInt8)).toArray

/-- The digest as lowercase hexadecimal text. -/
def hexDigest (data : ByteArray) : String :=
  let hex (n : Nat) : Char := if n < 10 then Char.ofNat (48 + n) else Char.ofNat (87 + n)
  String.ofList ((digest data).toList.flatMap fun b => [hex (b.toNat / 16), hex (b.toNat % 16)])

end Blake3

end KernelLaunch
