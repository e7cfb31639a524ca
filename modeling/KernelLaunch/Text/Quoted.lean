import KernelLaunch.Text.Classes
import KernelLaunch.Json.Value
/-!
# Quoted literals and trimming

The literal form of a string as the textual IR writes it: double quotes
around the characters, where the backslash, the double quote, tab, carriage
return, line feed and NUL take a backslash escape, and grapheme extenders and
characters that are not printable take `\u{hex}`. Everything else stands as
it is.

Trimming removes Unicode white space (the `White_Space` property) from both
ends of a string.
-/

namespace KernelLaunch

namespace Text

/-- Lower-case hexadecimal digits of a number, without leading zeros. -/
def hexDigits (n : Nat) : String :=
  String.ofList ((Nat.toDigits 16 n).map Char.toLower)

/-- The escaped form of one character inside a quoted literal. -/
def escapeInLiteral (c : Char) : String :=
  if c = '\x00' then "\\0"
  else if c = '\t' then "\\t"
  else if c = '\r' then "\\r"
  else if c = '\n' then "\\n"
  else if c = '\\' then "\\\\"
  else if c = '"' then "\\\""
  else if isExtender c || !isPrintable c then "\\u\x7b" ++ hexDigits c.toNat ++ "\x7d"
  else String.singleton c

/-- A string as a quoted literal. -/
def literal (s : String) : String :=
  "\"" ++ String.join (s.toList.map escapeInLiteral) ++ "\""

/-- Unicode white space: the characters with the `White_Space` property. -/
def isBlank (c : Char) : Bool :=
  let n := c.toNat
  (9 ≤ n && n ≤ 13) || n = 32 || n = 0x85 || n = 0xA0 || n = 0x1680 ||
    (0x2000 ≤ n && n ≤ 0x200A) || n = 0x2028 || n = 0x2029 || n = 0x202F ||
    n = 0x205F || n = 0x3000

/-- Drops Unicode white space from both ends. -/
def trim (s : String) : String :=
  String.ofList ((s.toList.dropWhile isBlank).reverse.dropWhile isBlank).reverse

/-- Drops Unicode white space from the start. -/
def trimStart (s : String) : String :=
  String.ofList (s.toList.dropWhile isBlank)

/-- The ASCII white space that JSON text may hold between tokens. -/
def isJsonBlank (b : UInt8) : Bool := b = 32 || b = 10 || b = 13 || b = 9

end Text

end KernelLaunch
