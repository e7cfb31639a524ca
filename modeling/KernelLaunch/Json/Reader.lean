import KernelLaunch.Json.Value
import KernelLaunch.Number.Binary64
import KernelLaunch.Text.Quoted
import KernelLaunch.Word
/-!
# Reading typed data from JSON text

A streaming reader that decodes JSON text straight into typed data, one
decoder per shape: words, strings, booleans, optional values, sequences,
records (from an object or from an array of the fields in order), maps, and
externally tagged variants (`"name"` or `{"name": content}`).

Errors name the first fault met while reading from left to right, with the
1-based line and the byte column where reading stood. A fault of the data
rather than of the syntax (a wrong type, a missing field) is placed where
reading stood once the enclosing record was closed. Containers nest at most
127 deep.

The same decoders also read an already parsed document (`Reader.ofJson`):
it is written out with its keys sorted, read again, and errors then carry no
place. A few rules differ there: a variant must be an object with exactly one
key or a string, and a record or a fixed-length array given as an array must
not have more elements than it reads.
-/

namespace KernelLaunch

namespace Reader

/-- A fault of the JSON syntax. -/
inductive SyntaxFault where
  | eofList
  | eofObject
  | eofString
  | eofValue
  | expectedColon
  | expectedListCommaOrEnd
  | expectedObjectCommaOrEnd
  | expectedIdent
  | expectedValue
  | invalidEscape
  | invalidNumber
  | numberOutOfRange
  | controlCharacter
  | keyMustBeString
  | loneLeadingSurrogate
  | trailingComma
  | trailingCharacters
  | unexpectedEndOfHexEscape
  | recursionLimit
  deriving Repr, BEq, Inhabited

/-- The wording of a syntax fault. -/
def SyntaxFault.message : SyntaxFault → String
  | .eofList => "EOF while parsing a list"
  | .eofObject => "EOF while parsing an object"
  | .eofString => "EOF while parsing a string"
  | .eofValue => "EOF while parsing a value"
  | .expectedColon => "expected `:`"
  | .expectedListCommaOrEnd => "expected `,` or `]`"
  | .expectedObjectCommaOrEnd => "expected `,` or `\x7d`"
  | .expectedIdent => "expected ident"
  | .expectedValue => "expected value"
  | .invalidEscape => "invalid escape"
  | .invalidNumber => "invalid number"
  | .numberOutOfRange => "number out of range"
  | .controlCharacter => "control character (\\u0000-\\u001F) found while parsing a string"
  | .keyMustBeString => "key must be a string"
  | .loneLeadingSurrogate => "lone leading surrogate in hex escape"
  | .trailingComma => "trailing comma"
  | .trailingCharacters => "trailing characters"
  | .unexpectedEndOfHexEscape => "unexpected end of hex escape"
  | .recursionLimit => "recursion limit exceeded"

/-- A number as read: a word, a negative integer, or a binary64 number for
fractions, exponents and integers beyond the word range. -/
inductive Number where
  | unsigned (n : Nat)
  | signed (n : Int)
  | float (x : Binary64)
  deriving Repr, Inhabited

/-- What was found where a value of another shape was expected. -/
inductive Found where
  | bool (b : Bool)
  | unsigned (n : Nat)
  | signed (n : Int)
  | float (x : Binary64)
  | str (s : String)
  | null
  | seq
  | map
  | unitVariant
  deriving Repr, Inhabited

/-- The wording of a found value. -/
def Found.describe : Found → String
  | .bool b => "boolean `" ++ toString b ++ "`"
  | .unsigned n => "integer `" ++ toString n ++ "`"
  | .signed n => "integer `" ++ toString n ++ "`"
  | .float x => "floating point `" ++ x.text ++ "`"
  | .str s => "string " ++ Text.literal s
  | .null => "null"
  | .seq => "sequence"
  | .map => "map"
  | .unitVariant => "unit variant"

/-- The found form of a number. -/
def Number.found : Number → Found
  | .unsigned n => .unsigned n
  | .signed n => .signed n
  | .float x => .float x

/-- What went wrong while reading. -/
inductive Problem where
  | malformed (fault : SyntaxFault)
  | invalidType (found : Found) (expected : String)
  | invalidValue (found : Found) (expected : String)
  | invalidLength (n : Nat) (expected : String)
  | unknownVariant (name : String) (variants : List String)
  | missingField (name : String)
  | duplicateField (name : String)
  deriving Repr, Inhabited

/-- Names in backquotes: one, two joined by `or`, or a list after `one of`. -/
def oneOf (names : List String) : String :=
  let q (n : String) := "`" ++ n ++ "`"
  match names with
  | [a] => q a
  | [a, b] => q a ++ " or " ++ q b
  | _ => "one of " ++ ", ".intercalate (names.map q)

/-- The wording of a problem. -/
def Problem.message : Problem → String
  | .malformed f => f.message
  | .invalidType f e => "invalid type: " ++ f.describe ++ ", expected " ++ e
  | .invalidValue f e => "invalid value: " ++ f.describe ++ ", expected " ++ e
  | .invalidLength n e => "invalid length " ++ toString n ++ ", expected " ++ e
  | .unknownVariant v [] => "unknown variant `" ++ v ++ "`, there are no variants"
  | .unknownVariant v vs => "unknown variant `" ++ v ++ "`, expected " ++ oneOf vs
  | .missingField n => "missing field `" ++ n ++ "`"
  | .duplicateField n => "duplicate field `" ++ n ++ "`"

/-- A reading error: the problem and, for text, its line and column. -/
structure ReadError where
  problem : Problem
  place : Option (Nat × Nat)
  deriving Repr, Inhabited

/-- The wording of an error: the problem, then its place if it has one. -/
def ReadError.message (e : ReadError) : String :=
  match e.place with
  | some (l, c) => e.problem.message ++ " at line " ++ toString l ++ " column " ++ toString c
  | none => e.problem.message

/-- The reading position: the text, the byte index, the remaining nesting
allowance, and whether the text stands for an already parsed document. -/
structure Cursor where
  src : ByteArray
  pos : Nat
  depth : Nat
  parsed : Bool

/-- A decoder: reads from the cursor, keeping its position also on failure. -/
abbrev Decoder (α : Type) := EStateM ReadError Cursor α

/-- The 1-based line and the byte column of an index of the text. -/
def positionOf (src : ByteArray) (i : Nat) : Nat × Nat :=
  let (line, start) := (List.range i).foldl
    (fun (acc : Nat × Nat) j => if src[j]? = some 10 then (acc.1 + 1, j + 1) else acc) (1, 0)
  (line, i - start)

/-- The place of the current index. -/
def place : Decoder (Option (Nat × Nat)) := do
  let c ← get
  pure (if c.parsed then none else some (positionOf c.src c.pos))

/-- The place just after the current index, capped at the end of the text. -/
def peekPlace : Decoder (Option (Nat × Nat)) := do
  let c ← get
  pure (if c.parsed then none else some (positionOf c.src (Nat.min c.src.size (c.pos + 1))))

/-- Fails with a syntax fault placed at the current index. -/
def fail {α : Type} (f : SyntaxFault) : Decoder α := do
  throw { problem := .malformed f, place := ← place }

/-- Fails with a syntax fault placed just after the current index. -/
def failPeek {α : Type} (f : SyntaxFault) : Decoder α := do
  throw { problem := .malformed f, place := ← peekPlace }

/-- Fails with a problem of the data; its place is given later. -/
def reject {α : Type} (p : Problem) : Decoder α := throw { problem := p, place := none }

/-- Runs a decoder; an error without a place gets the place where reading stopped. -/
def fixed {α : Type} (d : Decoder α) : Decoder α := fun c =>
  match d c with
  | .ok a c' => .ok a c'
  | .error e c' =>
      match e.place with
      | some _ => .error e c'
      | none =>
          let p := if c'.parsed then none else some (positionOf c'.src c'.pos)
          .error { e with place := p } c'

/-- Runs a decoder and reports its outcome without failing. -/
def attempt {α : Type} (d : Decoder α) : Decoder (Except ReadError α) := fun c =>
  match d c with
  | .ok a c' => .ok (.ok a) c'
  | .error e c' => .ok (.error e) c'

/-- Runs `body`, then `close` in any case; the first failure wins. -/
def closing {α : Type} (body : Decoder α) (close : Decoder Unit) : Decoder α := do
  let r ← attempt body
  let s ← attempt close
  match r, s with
  | .error e, _ => throw e
  | .ok _, .error e => throw e
  | .ok a, .ok _ => pure a

/-- The byte at the current index. -/
def peek : Decoder (Option UInt8) := do
  let c ← get
  pure c.src[c.pos]?

/-- The byte at the current index, zero at the end. -/
def peekOrNull : Decoder UInt8 := do
  pure ((← peek).getD 0)

/-- Moves past one byte. -/
def eat : Decoder Unit := modify fun c => { c with pos := c.pos + 1 }

/-- Reads one byte. -/
def next : Decoder (Option UInt8) := do
  let b ← peek
  if b.isSome then eat
  pure b

/-- Reads one byte, zero at the end. -/
def nextOrNull : Decoder UInt8 := do
  pure ((← next).getD 0)

/-- The index of the first byte at or after `i` that is not JSON white space. -/
def skipBlanksFrom (src : ByteArray) (i : Nat) : Nat :=
  if h : i < src.size then
    if Text.isJsonBlank src[i] then skipBlanksFrom src (i + 1) else i
  else i
termination_by src.size - i

/-- Skips white space and looks at the next byte. -/
def blanks : Decoder (Option UInt8) := do
  let c ← get
  let p := skipBlanksFrom c.src c.pos
  set { c with pos := p }
  pure c.src[p]?

/-- The number of bytes left, a bound on the steps of any loop over them. -/
def budget : Decoder Nat := do
  let c ← get
  pure (c.src.size - c.pos + 2)

/-- Whether a byte is a decimal digit. -/
def isDigit (b : UInt8) : Bool := 48 ≤ b && b ≤ 57

/-- The value of a hexadecimal digit. -/
def hexValue (b : UInt8) : Option Nat :=
  if 48 ≤ b && b ≤ 57 then some (b.toNat - 48)
  else if 65 ≤ b && b ≤ 70 then some (b.toNat - 55)
  else if 97 ≤ b && b ≤ 102 then some (b.toNat - 87)
  else none

/-! ## Strings -/

/-- Reads four hexadecimal digits of an escape. -/
def hexEscape : Decoder Nat := do
  let c ← get
  if c.pos + 4 ≤ c.src.size then
    let ds := [c.src[c.pos]?, c.src[c.pos + 1]?, c.src[c.pos + 2]?, c.src[c.pos + 3]?]
    set { c with pos := c.pos + 4 }
    match ds.map (fun b => b.bind hexValue) with
    | [some a, some b, some d, some e] => pure (((a * 16 + b) * 16 + d) * 16 + e)
    | _ => fail .invalidEscape
  else
    set { c with pos := c.src.size }
    fail .eofString

/-- Reads one byte of a string, failing at the end of the text. -/
def nextInString : Decoder UInt8 := do
  match ← next with
  | some b => pure b
  | none => fail .eofString

/-- Looks at the next byte of a string, failing at the end of the text. -/
def peekInString : Decoder UInt8 := do
  match ← peek with
  | some b => pure b
  | none => fail .eofString

/-- Reads a `\u` escape, a surrogate pair when the first unit leads one. -/
def unicodeEscape : Decoder Char := do
  let n ← hexEscape
  if 0xDC00 ≤ n && n ≤ 0xDFFF then fail .loneLeadingSurrogate
  else if n < 0xD800 || n > 0xDBFF then pure (Char.ofNat n)
  else
    if (← peekInString) == 92 then eat else
      eat
      fail .unexpectedEndOfHexEscape
    if (← peekInString) == 117 then eat else
      eat
      fail .unexpectedEndOfHexEscape
    let n2 ← hexEscape
    if n2 < 0xDC00 || n2 > 0xDFFF then fail .loneLeadingSurrogate
    else pure (Char.ofNat (((n - 0xD800) * 1024 + (n2 - 0xDC00)) + 0x10000))

/-- Reads the escape after a backslash. -/
def escape : Decoder Char := do
  let b ← nextInString
  match b with
  | 34 => pure '"'
  | 92 => pure '\\'
  | 47 => pure '/'
  | 98 => pure (Char.ofNat 8)
  | 102 => pure (Char.ofNat 12)
  | 110 => pure '\n'
  | 114 => pure '\r'
  | 116 => pure '\t'
  | 117 => unicodeEscape
  | _ => fail .invalidEscape

/-- Decodes the UTF-8 character that starts at the current index. -/
def utf8Char : Decoder Char := do
  let c ← get
  let b0 := (c.src[c.pos]?.getD 0).toNat
  let at_ (k : Nat) : Nat := (c.src[c.pos + k]?.getD 0).toNat % 64
  let (len, cp) :=
    if b0 < 0x80 then (1, b0)
    else if b0 < 0xE0 then (2, (b0 % 32) * 64 + at_ 1)
    else if b0 < 0xF0 then (3, ((b0 % 16) * 64 + at_ 1) * 64 + at_ 2)
    else (4, (((b0 % 8) * 64 + at_ 1) * 64 + at_ 2) * 64 + at_ 3)
  set { c with pos := c.pos + len }
  pure (Char.ofNat cp)

/-- Reads the rest of a string after its opening quote. -/
def stringBody : Decoder String := do
  let rec go (fuel : Nat) (acc : Array Char) : Decoder String := do
    match fuel with
    | 0 => fail .eofString
    | fuel + 1 =>
      match ← peek with
      | none => fail .eofString
      | some 34 =>
          eat
          pure (String.ofList acc.toList)
      | some 92 =>
          eat
          let ch ← escape
          go fuel (acc.push ch)
      | some b =>
          if b < 32 then
            eat
            fail .controlCharacter
          else
            let ch ← utf8Char
            go fuel (acc.push ch)
  go (← budget) #[]

/-- Skips an escape after a backslash. -/
def skipEscape : Decoder Unit := do
  let b ← nextInString
  if b == 34 || b == 92 || b == 47 || b == 98 || b == 102 || b == 110 || b == 114 || b == 116 then
    pure ()
  else if b == 117 then
    let _ ← hexEscape
  else fail .invalidEscape

/-- Skips the rest of a string after its opening quote. -/
def skipStringBody : Decoder Unit := do
  let rec go (fuel : Nat) : Decoder Unit := do
    match fuel with
    | 0 => fail .eofString
    | fuel + 1 =>
      match ← peek with
      | none => fail .eofString
      | some 34 => eat
      | some 92 =>
          eat
          skipEscape
          go fuel
      | some b =>
          if b < 32 then fail .controlCharacter
          else
            eat
            go fuel
  go (← budget)

/-! ## Numbers -/

/-- Whether appending a digit leaves the word range. -/
def overflows (s d : Nat) : Bool := s * 10 + d > Word.max

/-- The largest 32-bit signed integer. -/
def i32Max : Int := 2147483647

/-- Saturation to the 32-bit signed range. -/
def clampI32 (x : Int) : Int := if x > i32Max then i32Max else if x < -2147483648 then -2147483648 else x

/-- Builds a number from a significand and a decimal exponent: the significand
is rounded, then multiplied or divided by a rounded power of ten; exponents
below -308 divide by 10^308 first. A product that overflows is an error. -/
def fromParts (positive : Bool) (significand : Nat) (exponent : Int) : Decoder Binary64 := do
  let rec go (fuel : Nat) (f : Binary64) (e : Int) : Decoder Binary64 := do
    match fuel with
    | 0 => pure f
    | fuel + 1 =>
      if e.natAbs ≤ 308 then
        if 0 ≤ e then
          let g := f.mul (Binary64.pow10 e.natAbs)
          if g.isInfinite then fail .numberOutOfRange else pure g
        else pure (f.div (Binary64.pow10 e.natAbs))
      else if f.isZero then pure f
      else if 0 ≤ e then fail .numberOutOfRange
      else go fuel (f.div (Binary64.pow10 308)) (e + 308)
  let f ← go 8 (Binary64.ofNat significand) exponent
  pure (if positive then f else f.negate)

/-- Reads the digits of an exponent after `e`. -/
def exponentPart (positive : Bool) (significand : Nat) (start : Int) : Decoder Binary64 := do
  eat
  let positiveExp ← match ← peekOrNull with
    | 43 => do eat; pure true
    | 45 => do eat; pure false
    | _ => pure true
  let first ← match ← next with
    | none => fail .eofValue
    | some b => if isDigit b then pure (b.toNat - 48 : Int) else fail .invalidNumber
  let rec digits (fuel : Nat) (exp : Int) : Decoder (Option Int) := do
    match fuel with
    | 0 => pure (some exp)
    | fuel + 1 =>
      let b ← peekOrNull
      if isDigit b then
        eat
        let d : Int := b.toNat - 48
        if exp * 10 + d > i32Max then pure none else digits fuel (exp * 10 + d)
      else pure (some exp)
  match ← digits (← budget) first with
  | some exp =>
      let final := if positiveExp then clampI32 (start + exp) else clampI32 (start - exp)
      fromParts positive significand final
  | none =>
      if significand != 0 && positiveExp then fail .numberOutOfRange
      else
        let rec skip (fuel : Nat) : Decoder Unit := do
          match fuel with
          | 0 => pure ()
          | fuel + 1 => if isDigit (← peekOrNull) then do eat; skip fuel else pure ()
        skip (← budget)
        pure (.finite (!positive) 0 (-1074))

/-- Skips the digits after a significand that no longer fits, then reads an exponent. -/
def decimalOverflow (positive : Bool) (significand : Nat) (exponent : Int) : Decoder Binary64 := do
  let rec skip (fuel : Nat) : Decoder Unit := do
    match fuel with
    | 0 => pure ()
    | fuel + 1 => if isDigit (← peekOrNull) then do eat; skip fuel else pure ()
  skip (← budget)
  let b ← peekOrNull
  if b == 101 || b == 69 then exponentPart positive significand exponent
  else fromParts positive significand exponent

/-- Reads the fraction after a decimal point. -/
def fractionPart (positive : Bool) (significand : Nat) (before : Int) : Decoder Binary64 := do
  eat
  let rec digits (fuel : Nat) (s : Nat) (after : Int) : Decoder (Sum (Nat × Int) Binary64) := do
    match fuel with
    | 0 => pure (.inl (s, after))
    | fuel + 1 =>
      let b ← peekOrNull
      if isDigit b then
        let d := b.toNat - 48
        if overflows s d then
          pure (.inr (← decimalOverflow positive s (before + after)))
        else
          eat
          digits fuel (s * 10 + d) (after - 1)
      else pure (.inl (s, after))
  match ← digits (← budget) significand 0 with
  | .inr x => pure x
  | .inl (s, after) =>
      if after == 0 then
        match ← peek with
        | some _ => failPeek .invalidNumber
        | none => failPeek .eofValue
      else
        let b ← peekOrNull
        if b == 101 || b == 69 then exponentPart positive s (before + after)
        else fromParts positive s (before + after)

/-- Reads what follows the digits of an integer: a fraction, an exponent, or nothing. -/
def numberTail (positive : Bool) (significand : Nat) : Decoder Number := do
  let b ← peekOrNull
  if b == 46 then pure (.float (← fractionPart positive significand 0))
  else if b == 101 || b == 69 then pure (.float (← exponentPart positive significand 0))
  else if positive then pure (.unsigned significand)
  else if 0 < significand && significand ≤ 9223372036854775808 then pure (.signed (-(significand : Int)))
  else pure (.float (Binary64.ofNat significand).negate)

/-- Reads an integer whose significand no longer fits: further digits only
raise the exponent. -/
def longInteger (positive : Bool) (significand : Nat) : Decoder Binary64 := do
  let rec go (fuel : Nat) (exponent : Int) : Decoder Binary64 := do
    match fuel with
    | 0 => fromParts positive significand exponent
    | fuel + 1 =>
      let b ← peekOrNull
      if isDigit b then
        eat
        go fuel (exponent + 1)
      else if b == 46 then fractionPart positive significand exponent
      else if b == 101 || b == 69 then exponentPart positive significand exponent
      else fromParts positive significand exponent
  go (← budget) 0

/-- Reads a number whose sign has been read. -/
def integer (positive : Bool) : Decoder Number := do
  match ← next with
  | none => fail .eofValue
  | some 48 =>
      if isDigit (← peekOrNull) then failPeek .invalidNumber else numberTail positive 0
  | some c =>
      if isDigit c then
        let rec go (fuel : Nat) (s : Nat) : Decoder Number := do
          match fuel with
          | 0 => numberTail positive s
          | fuel + 1 =>
            let b ← peekOrNull
            if isDigit b then
              let d := b.toNat - 48
              if overflows s d then pure (.float (← longInteger positive s))
              else
                eat
                go fuel (s * 10 + d)
            else numberTail positive s
        go (← budget) (c.toNat - 48)
      else fail .invalidNumber

/-- Skips an exponent after `e`. -/
def skipExponent : Decoder Unit := do
  eat
  let b ← peekOrNull
  if b == 43 || b == 45 then eat
  if !isDigit (← nextOrNull) then fail .invalidNumber
  let rec skip (fuel : Nat) : Decoder Unit := do
    match fuel with
    | 0 => pure ()
    | fuel + 1 => if isDigit (← peekOrNull) then do eat; skip fuel else pure ()
  skip (← budget)

/-- Skips a number whose sign has been read. -/
def skipInteger : Decoder Unit := do
  let rec skip (fuel : Nat) : Decoder Bool := do
    match fuel with
    | 0 => pure false
    | fuel + 1 => if isDigit (← peekOrNull) then do eat; let _ ← skip fuel; pure true else pure false
  let c ← nextOrNull
  if c == 48 then
    if isDigit (← peekOrNull) then failPeek .invalidNumber
  else if isDigit c then
    let _ ← skip (← budget)
  else fail .invalidNumber
  let b ← peekOrNull
  if b == 46 then
    eat
    if !(← skip (← budget)) then failPeek .invalidNumber
    let b ← peekOrNull
    if b == 101 || b == 69 then skipExponent
  else if b == 101 || b == 69 then skipExponent

/-- Reads the letters of a literal after its first one. -/
def ident (rest : List UInt8) : Decoder Unit := do
  for b in rest do
    match ← next with
    | none => fail .eofValue
    | some x => if x != b then fail .expectedIdent

/-! ## Values of the wrong shape -/

/-- Reads the value that stands where another shape was expected, to name it. -/
def foundValue : Decoder Found := do
  let b ← peekOrNull
  if b == 110 then do eat; ident [117, 108, 108]; pure .null
  else if b == 116 then do eat; ident [114, 117, 101]; pure (.bool true)
  else if b == 102 then do eat; ident [97, 108, 115, 101]; pure (.bool false)
  else if b == 45 then do eat; pure (← integer false).found
  else if isDigit b then pure (← integer true).found
  else if b == 34 then do eat; pure (.str (← stringBody))
  else if b == 91 then pure .seq
  else if b == 123 then pure .map
  else failPeek .expectedValue

/-- Fails because the next value is not of the expected shape. -/
def wrongType {α : Type} (expected : String) : Decoder α := do
  let f ← foundValue
  throw { problem := .invalidType f expected, place := ← place }

/-- Skips a whole value of any shape. -/
def skipValue : Decoder Unit := do
  -- stack of enclosing containers (91 for arrays, 123 for objects)
  let rec go (fuel : Nat) (stack : List UInt8) (enclosing : Option UInt8) : Decoder Unit := do
    match fuel with
    | 0 => pure ()
    | fuel + 1 =>
      let peekB ← match ← blanks with
        | some b => pure b
        | none => failPeek .eofValue
      let (stack, frame) ← (do
        if peekB == 110 then do eat; ident [117, 108, 108]; pure (stack, none)
        else if peekB == 116 then do eat; ident [114, 117, 101]; pure (stack, none)
        else if peekB == 102 then do eat; ident [97, 108, 115, 101]; pure (stack, none)
        else if peekB == 45 then do eat; skipInteger; pure (stack, none)
        else if isDigit peekB then do skipInteger; pure (stack, none)
        else if peekB == 34 then do eat; skipStringBody; pure (stack, none)
        else if peekB == 91 || peekB == 123 then do
          eat
          pure (match enclosing with | some e => e :: stack | none => stack, some peekB)
        else failPeek .expectedValue : Decoder (List UInt8 × Option UInt8))
      let start : Option (Bool × UInt8 × List UInt8) :=
        match frame with
        | some f => some (false, f, stack)
        | none =>
          match enclosing with
          | some f => some (true, f, stack)
          | none =>
            match stack with
            | f :: rest => some (true, f, rest)
            | [] => none
      match start with
      | none => pure ()
      | some (acceptComma, frame, stack) =>
        -- close containers until a comma or a new member
        let rec closeLoop (fuel : Nat) (acceptComma : Bool) (frame : UInt8) (stack : List UInt8) :
            Decoder (Option (UInt8 × List UInt8)) := do
          match fuel with
          | 0 => pure none
          | fuel + 1 =>
            match ← blanks with
            | some 44 =>
                if acceptComma then
                  eat
                  pure (some (frame, stack))
                else pure (some (frame, stack))
            | some b =>
                if (b == 93 && frame == 91) || (b == 125 && frame == 123) then
                  eat
                  match stack with
                  | f :: rest => closeLoop fuel true f rest
                  | [] => pure none
                else if acceptComma then
                  failPeek (if frame == 91 then .expectedListCommaOrEnd else .expectedObjectCommaOrEnd)
                else pure (some (frame, stack))
            | none => failPeek (if frame == 91 then .eofList else .eofObject)
        match ← closeLoop fuel acceptComma frame stack with
        | none => pure ()
        | some (frame, stack) =>
          if frame == 123 then
            match ← blanks with
            | some 34 => eat
            | some _ => failPeek .keyMustBeString
            | none => failPeek .eofObject
            skipStringBody
            match ← blanks with
            | some 58 => eat
            | some _ => failPeek .expectedColon
            | none => failPeek .eofObject
          go fuel stack (some frame)
  go (← budget) [] none

/-! ## Shapes -/

/-- Skips white space and fails at the end of the text. -/
def valueStart : Decoder UInt8 := do
  match ← blanks with
  | some b => pure b
  | none => failPeek .eofValue

/-- Enters a container, failing when the nesting allowance runs out. -/
def nest {α : Type} (body : Decoder α) : Decoder α := do
  let c ← get
  if c.parsed then body
  else if c.depth ≤ 1 then failPeek .recursionLimit
  else
    set { c with depth := c.depth - 1 }
    let a ← body
    modify fun c' => { c' with depth := c'.depth + 1 }
    pure a

/-- Reads a number and hands it to `visit`. -/
def number {α : Type} (expected : String) (visit : Number → Except Problem α) : Decoder α := fixed do
  let b ← valueStart
  let n ← if b == 45 then do eat; integer false
    else if isDigit b then integer true
    else wrongType expected
  match visit n with
  | .ok a => pure a
  | .error p => reject p

/-- A 64-bit word. -/
def word : Decoder Nat := number "u64" fun
  | .unsigned n => .ok n
  | .signed n => if 0 ≤ n then .ok n.toNat else .error (.invalidValue (.signed n) "u64")
  | .float x => .error (.invalidType (.float x) "u64")

/-- A 32-bit word. -/
def word32 : Decoder Nat := number "u32" fun
  | .unsigned n => if n ≤ Word.max32 then .ok n else .error (.invalidValue (.unsigned n) "u32")
  | .signed n =>
      if 0 ≤ n && n ≤ Word.max32 then .ok n.toNat else .error (.invalidValue (.signed n) "u32")
  | .float x => .error (.invalidType (.float x) "u32")

/-- A string. -/
def string : Decoder String := fixed do
  let b ← valueStart
  if b == 34 then do eat; stringBody else wrongType "a string"

/-- A boolean. -/
def bool : Decoder Bool := fixed do
  let b ← valueStart
  if b == 116 then do eat; ident [114, 117, 101]; pure true
  else if b == 102 then do eat; ident [97, 108, 115, 101]; pure false
  else wrongType "a boolean"

/-- `null`. -/
def unit : Decoder Unit := fixed do
  let b ← valueStart
  if b == 110 then do eat; ident [117, 108, 108] else wrongType "unit"

/-- An optional value: `null` or the value. -/
def optional {α : Type} (d : Decoder α) : Decoder (Option α) := do
  match ← blanks with
  | some 110 =>
      eat
      ident [117, 108, 108]
      pure none
  | _ => some <$> d

/-- Whether another element follows in an array. -/
def hasElement (first : Bool) : Decoder Bool := do
  match ← blanks with
  | none => failPeek .eofList
  | some 93 => pure false
  | some b =>
      if first then pure true
      else if b == 44 then
        eat
        match ← blanks with
        | some 93 => failPeek .trailingComma
        | some _ => pure true
        | none => failPeek .eofValue
      else failPeek .expectedListCommaOrEnd

/-- Counts the elements of the array that starts at the current index, without moving. -/
def countElements : Decoder Nat := do
  let c ← get
  let count : Decoder Nat := do
    eat
    let rec go (fuel : Nat) (first : Bool) (n : Nat) : Decoder Nat := do
      match fuel with
      | 0 => pure n
      | fuel + 1 =>
        if ← hasElement first then
          skipValue
          go fuel false (n + 1)
        else pure n
    go (← budget) true 0
  let r ← attempt count
  set c
  pure (match r with | .ok n => n | .error _ => 0)

/-- Counts the members of the object that starts at the current index, without moving. -/
def countMembers : Decoder Nat := do
  let c ← get
  let count : Decoder Nat := do
    eat
    let rec go (fuel : Nat) (n : Nat) : Decoder Nat := do
      match fuel with
      | 0 => pure n
      | fuel + 1 =>
        match ← blanks with
        | some 34 =>
            eat
            skipStringBody
            let _ ← blanks
            eat
            skipValue
            let _ ← blanks
            if (← peekOrNull) == 44 then eat
            go fuel (n + 1)
        | _ => pure n
    go (← budget) 0
  let r ← attempt count
  set c
  pure (match r with | .ok n => n | .error _ => 0)

/-- Closes an array after its visitor. Reading an already parsed document, an
array with elements left over is an error that counts all of them. -/
def endArray (total : Nat) : Decoder Unit := do
  let c ← get
  if c.parsed then
    match ← blanks with
    | some 93 => eat
    | _ => reject (.invalidLength total "fewer elements in array")
  else
    match ← blanks with
    | some 93 => eat
    | some 44 =>
        eat
        match ← blanks with
        | some 93 => failPeek .trailingComma
        | _ => failPeek .trailingCharacters
    | some _ => failPeek .trailingCharacters
    | none => failPeek .eofList

/-- Closes an object after its visitor. -/
def endObject : Decoder Unit := do
  match ← blanks with
  | some 125 => eat
  | some 44 => failPeek .trailingComma
  | some _ => failPeek .trailingCharacters
  | none => failPeek .eofObject

/-- An array read by `visit`, which reads its elements through `hasElement`. -/
def arrayWith {α : Type} (expected : String) (visit : Decoder α) : Decoder α := fixed do
  let b ← valueStart
  if b != 91 then wrongType expected
  else nest do
    let total ← if (← get).parsed then countElements else pure 0
    eat
    closing visit (endArray total)

/-- Reads elements until the array ends. -/
def elements {α : Type} (d : Decoder α) : Decoder (List α) := do
  let rec go (fuel : Nat) (first : Bool) (acc : Array α) : Decoder (List α) := do
    match fuel with
    | 0 => pure acc.toList
    | fuel + 1 =>
      if ← hasElement first then
        let a ← d
        go fuel false (acc.push a)
      else pure acc.toList
  go (← budget) true #[]

/-- A sequence of any length. -/
def list {α : Type} (d : Decoder α) : Decoder (List α) := arrayWith "a sequence" (elements d)

/-- Exactly `n` elements; a missing one is an error naming `expected`. -/
def exactly {α : Type} (n : Nat) (expected : String) (d : Decoder α) : Decoder (List α) := do
  let rec go (i : Nat) (fuel : Nat) (first : Bool) (acc : Array α) : Decoder (List α) := do
    match fuel with
    | 0 => pure acc.toList
    | fuel + 1 =>
      if ← hasElement first then
        let a ← d
        go (i + 1) fuel false (acc.push a)
      else reject (.invalidLength i expected)
  go 0 n true #[]

/-- A fixed-length array of three. -/
def triple {α : Type} (d : Decoder α) : Decoder (α × α × α) :=
  arrayWith "an array of length 3" do
    match ← exactly 3 "an array of length 3" d with
    | [a, b, c] => pure (a, b, c)
    | _ => reject (.invalidLength 0 "an array of length 3")

/-- Reads the colon after a key. -/
def colon : Decoder Unit := do
  match ← blanks with
  | some 58 => eat
  | some _ => failPeek .expectedColon
  | none => failPeek .eofObject

/-- Reads the next key of an object, or `none` at its end. -/
def nextKey (first : Bool) : Decoder (Option String) := do
  let keyAt : Option UInt8 → Decoder (Option String)
    | some 34 => do eat; pure (some (← stringBody))
    | some 125 => failPeek .trailingComma
    | some _ => failPeek .keyMustBeString
    | none => failPeek .eofValue
  match ← blanks with
  | some 125 => pure none
  | some 44 =>
      if first then keyAt (some 44)
      else
        eat
        keyAt (← blanks)
  | some b => if first then keyAt (some b) else failPeek .expectedObjectCommaOrEnd
  | none => failPeek .eofObject

/-- An object of string keys, in the order read; a repeated key appears twice. -/
def members {α : Type} (d : Decoder α) : Decoder (List (String × α)) := fixed do
  let b ← valueStart
  if b != 123 then wrongType "a map"
  else nest do
    eat
    let rec go (fuel : Nat) (first : Bool) (acc : Array (String × α)) :
        Decoder (List (String × α)) := do
      match fuel with
      | 0 => pure acc.toList
      | fuel + 1 =>
        match ← nextKey first with
        | none => pure acc.toList
        | some k =>
            colon
            let v ← d
            go fuel false (acc.push (k, v))
    closing (go (← budget) true #[]) endObject

/-- How a record's fields are read. The state `σ` collects the fields read so far. -/
structure Record (σ α : Type) where
  /-- The shape's name in errors, such as `struct Module`. -/
  expecting : String
  /-- Field names in declaration order. -/
  names : List String
  /-- The state before any field is read. -/
  init : σ
  /-- Whether field `i` has been read. -/
  isSet : Nat → σ → Bool
  /-- Reads the value of field `i` into the state. -/
  read : Nat → σ → Decoder σ
  /-- What an array form without element `i` gives: a default, or an error. -/
  absent : Nat → σ → Except Problem σ
  /-- The record from the state; a missing field is an error. -/
  finish : σ → Except Problem α

/-- The index of a name in a list. -/
def indexOf? (names : List String) (k : String) : Option Nat := names.idxOf? k

/-- Reads the fields of an object into the record's state. -/
def recordMembers {σ α : Type} (r : Record σ α) : Decoder α := do
  let rec go (fuel : Nat) (first : Bool) (s : σ) : Decoder σ := do
    match fuel with
    | 0 => pure s
    | fuel + 1 =>
      match ← nextKey first with
      | none => pure s
      | some k =>
          match indexOf? r.names k with
          | some i =>
              if r.isSet i s then reject (.duplicateField k)
              else
                colon
                let s ← r.read i s
                go fuel false s
          | none =>
              colon
              skipValue
              go fuel false s
  let s ← go (← budget) true r.init
  match r.finish s with
  | .ok a => pure a
  | .error p => reject p

/-- Reads the fields of an array, in declaration order, into the record's state. -/
def recordElements {σ α : Type} (r : Record σ α) : Decoder α := do
  let withCount := r.expecting ++ " with " ++ toString r.names.length ++
    (if r.names.length == 1 then " element" else " elements")
  let rec go (i : Nat) (fuel : Nat) (first : Bool) (s : σ) : Decoder σ := do
    match fuel with
    | 0 => pure s
    | fuel + 1 =>
      if ← hasElement first then
        let s ← r.read i s
        go (i + 1) fuel false s
      else
        match r.absent i s with
        | .ok s => go (i + 1) fuel first s
        | .error (.invalidLength n _) => reject (.invalidLength n withCount)
        | .error p => reject p
  let s ← go 0 r.names.length true r.init
  match r.finish s with
  | .ok a => pure a
  | .error p => reject p

/-- A record, from an object or from an array of its fields. -/
def record {σ α : Type} (r : Record σ α) : Decoder α := fixed do
  let b ← valueStart
  if b == 91 then
    nest do
      let total ← if (← get).parsed then countElements else pure 0
      eat
      closing (recordElements r) (endArray total)
  else if b == 123 then
    nest do
      eat
      closing (recordMembers r) endObject
  else wrongType r.expecting

/-- How a variant's content is given: after its name in an object, or not at
all when the variant is a bare string. -/
inductive Access where
  | inline
  | bare
  deriving BEq, Inhabited

/-- Reads a variant name and finds it in the list. -/
def variantName (variants : List String) : Decoder Nat := fixed do
  let b ← valueStart
  if b == 34 then
    eat
    let s ← stringBody
    match indexOf? variants s with
    | some i => pure i
    | none => reject (.unknownVariant s variants)
  else wrongType "variant identifier"

/-- An externally tagged variant: a bare name, or an object with the name as
its one key and the content as its value. -/
def variant {α : Type} (variants : List String) (content : Nat → Access → Decoder α) : Decoder α := do
  let c ← get
  match ← blanks with
  | some 123 =>
      if c.parsed && (← countMembers) != 1 then
        reject (.invalidValue .map "map with a single key")
      else
        nest do
          eat
          let i ← variantName variants
          colon
          let a ← content i .inline
          match ← blanks with
          | some 125 =>
              eat
              pure a
          | some _ => fail .expectedValue
          | none => fail .eofObject
  | some 34 =>
      let i ← variantName variants
      content i .bare
  | some _ =>
      if c.parsed then
        let f ← foundValue
        reject (.invalidType f "string or map")
      else failPeek .expectedValue
  | none => failPeek .eofValue

/-- A variant without content. -/
def unitVariant {α : Type} (a : α) : Access → Decoder α
  | .inline => do unit; pure a
  | .bare => pure a

/-- A variant with one value as its content. -/
def newtypeVariant {α β : Type} (d : Decoder β) (f : β → α) : Access → Decoder α
  | .inline => f <$> d
  | .bare => reject (.invalidType .unitVariant "newtype variant")

/-- A variant whose content is an array read by `visit`. -/
def tupleVariant {α : Type} (expecting : String) (visit : Decoder α) : Access → Decoder α
  | .inline => do
      let c ← get
      if c.parsed then
        match ← blanks with
        | some 91 =>
            if (← countElements) == 0 then do
              let _ ← foundValue
              reject (.invalidType .null expecting)
            else arrayWith expecting visit
        | _ => do
            let f ← foundValue
            reject (.invalidType f "tuple variant")
      else arrayWith expecting visit
  | .bare => reject (.invalidType .unitVariant "tuple variant")

/-- A variant whose content is a record. -/
def recordVariant {σ α : Type} (r : Record σ α) : Access → Decoder α
  | .inline => do
      let c ← get
      if c.parsed then
        match ← blanks with
        | some 123 => record r
        | _ => do
            let f ← foundValue
            reject (.invalidType f "struct variant")
      else record r
  | .bare => reject (.invalidType .unitVariant "struct variant")

/-- Reads a whole text: the value, then nothing but white space. -/
def ofText {α : Type} (d : Decoder α) (text : String) : Except ReadError α :=
  let full : Decoder α := do
    let a ← d
    match ← blanks with
    | some _ => failPeek .trailingCharacters
    | none => pure a
  match full { src := text.toUTF8, pos := 0, depth := 128, parsed := false } with
  | .ok a _ => .ok a
  | .error e _ => .error e

/-- Members with each repeated key reduced to its last value, sorted by key. -/
def sortMembers (ms : List (String × Json)) : List (String × Json) :=
  let last := ms.foldl (fun (acc : List (String × Json)) (kv : String × Json) =>
    (acc.filter (fun p => p.1 != kv.1)) ++ [kv]) []
  last.mergeSort (fun a b => decide (a.1 ≤ b.1))

mutual
/-- The document with every object's keys sorted and each repeated key
reduced to its last value. -/
def canonical : Json → Json
  | .arr items => .arr (canonicalItems items)
  | .obj ms => .obj (sortMembers (canonicalMembers ms))
  | j => j

/-- `canonical` on each item. -/
def canonicalItems : List Json → List Json
  | [] => []
  | j :: js => canonical j :: canonicalItems js

/-- `canonical` on each member's value. -/
def canonicalMembers : List (String × Json) → List (String × Json)
  | [] => []
  | (k, j) :: ms => (k, canonical j) :: canonicalMembers ms
end

/-- Reads an already parsed document. -/
def ofJson {α : Type} (d : Decoder α) (j : Json) : Except ReadError α :=
  match d { src := (canonical j).compact.toUTF8, pos := 0, depth := 128, parsed := true } with
  | .ok a _ => .ok a
  | .error e _ => .error e

end Reader

end KernelLaunch
