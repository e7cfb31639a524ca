/-!
# JSON values

A JSON document as a tree. Objects keep their members in the order given, so
a writer reproduces a record's field order. Numbers are integers, or decimals
`mantissa × 10^exponent` for the rare fractional number that an input holds.

Two writers share one escaping rule: the compact form has no blanks, the
pretty form puts each member on its own line, indented by two spaces per
level, with `": "` after each key.
-/

namespace KernelLaunch

/-- A JSON value. -/
inductive Json where
  | null
  | bool (b : Bool)
  | int (n : Int)
  | decimal (mantissa : Int) (exponent : Int)
  | str (s : String)
  | arr (items : List Json)
  | obj (members : List (String × Json))
  deriving Repr, Inhabited

namespace Json

/-- A natural number as a JSON integer. -/
def nat (n : Nat) : Json := .int n

/-- An optional value, `null` when absent. -/
def opt {α : Type} (f : α → Json) : Option α → Json
  | some a => f a
  | none => .null

/-- A list of natural numbers. -/
def nats (ns : List Nat) : Json := .arr (ns.map nat)

/-- A list of strings. -/
def strs (ss : List String) : Json := .arr (ss.map str)

/-- The member of an object with the given key: the last one when the key repeats. -/
def field? (j : Json) (key : String) : Option Json :=
  match j with
  | .obj ms => (ms.reverse.find? (·.1 == key)).map (·.2)
  | _ => none

/-- The hexadecimal digit of a value below sixteen, in lower case. -/
def hexDigit (n : Nat) : Char :=
  if n < 10 then Char.ofNat (48 + n) else Char.ofNat (87 + n)

/-- Two lower-case hexadecimal digits of a byte. -/
def hexByte (n : Nat) : String :=
  String.ofList [hexDigit (n / 16 % 16), hexDigit (n % 16)]

/-- The escape of one character inside a JSON string: quote, backslash and
the control characters are escaped, short forms where JSON has them. -/
def escapeChar (c : Char) : String :=
  if c = '"' then "\\\""
  else if c = '\\' then "\\\\"
  else if c = '\n' then "\\n"
  else if c = '\r' then "\\r"
  else if c = '\t' then "\\t"
  else if c.toNat = 8 then "\\b"
  else if c.toNat = 12 then "\\f"
  else if c.toNat < 32 then "\\u00" ++ hexByte c.toNat
  else String.singleton c

/-- A string literal: quotes around the escaped characters. -/
def quote (s : String) : String :=
  "\"" ++ String.join (s.toList.map escapeChar) ++ "\""

/-- The text of a decimal number. -/
def decimalText (m e : Int) : String :=
  toString m ++ "e" ++ toString e

mutual
/-- The compact text: no blanks between tokens. -/
def compact : Json → String
  | .null => "null"
  | .bool true => "true"
  | .bool false => "false"
  | .int n => toString n
  | .decimal m e => decimalText m e
  | .str s => quote s
  | .arr items => "[" ++ compactItems items ++ "]"
  | .obj ms => "\x7b" ++ compactMembers ms ++ "\x7d"

/-- Compact array items separated by commas. -/
def compactItems : List Json → String
  | [] => ""
  | [j] => compact j
  | j :: js => compact j ++ "," ++ compactItems js

/-- Compact object members separated by commas. -/
def compactMembers : List (String × Json) → String
  | [] => ""
  | [(k, j)] => quote k ++ ":" ++ compact j
  | (k, j) :: ms => quote k ++ ":" ++ compact j ++ "," ++ compactMembers ms
end

/-- Two blanks per level of indentation. -/
def indent (level : Nat) : String := String.join (List.replicate level "  ")

mutual
/-- The pretty text at the given indentation level. Empty arrays and objects
stay on one line. -/
def prettyAt (level : Nat) : Json → String
  | .arr [] => "[]"
  | .obj [] => "\x7b\x7d"
  | .arr items => "[\n" ++ prettyItems (level + 1) items ++ "\n" ++ indent level ++ "]"
  | .obj ms => "\x7b\n" ++ prettyMembers (level + 1) ms ++ "\n" ++ indent level ++ "\x7d"
  | j => compact j

/-- Pretty array items, one per line. -/
def prettyItems (level : Nat) : List Json → String
  | [] => ""
  | [j] => indent level ++ prettyAt level j
  | j :: js => indent level ++ prettyAt level j ++ ",\n" ++ prettyItems level js

/-- Pretty object members, one per line. -/
def prettyMembers (level : Nat) : List (String × Json) → String
  | [] => ""
  | [(k, j)] => indent level ++ quote k ++ ": " ++ prettyAt level j
  | (k, j) :: ms => indent level ++ quote k ++ ": " ++ prettyAt level j ++ ",\n" ++ prettyMembers level ms
end

/-- The pretty text of a whole document. -/
def pretty (j : Json) : String := prettyAt 0 j

end Json

end KernelLaunch
