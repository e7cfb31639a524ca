import KernelLaunch.Text.Letters
import KernelLaunch.Text.Quoted
/-!
# Patterns

The regular expressions that log filters match text values with.

The syntax: literal characters; `.`; classes in brackets, with ranges,
negation, nested classes, the named ASCII classes such as `[:alpha:]`, and the
set operations `&&`, `--` and `~~`; the control characters `\n`, `\t`, `\r`,
`\f`, `\v` and `\a`, and code points written `\x`, `\u` or `\U`; the anchors
`^`, `$`, `\A` and `\z`; groups, plain or named, and the flags `i`, `m`, `s`,
`U`, `u`, `x` and `R`, each at most once in a group; alternation; and the
repetitions `*`, `+`, `?`, `{n}`, `{n,}` and `{n,m}`, each made lazy by a `?`
after it. In the verbose mode of `x`, white space and `#` comments between
the parts are skipped.

Patterns are read without any Unicode property table. In the default Unicode
mode this leaves out the classes `\d`, `\w` and `\s`, word boundaries, and
case-insensitive matching: a pattern that uses them is not a pattern. With
`u` turned off, `\d`, `\w` and `\s` are the ASCII classes; `\b`, `\B`, `\<`,
`\>`, `\b{start}`, `\b{end}`, `\b{start-half}` and `\b{end-half}` are ASCII
word boundaries; letters match either case in the ASCII range; and nothing
may match a character outside ASCII: `.`, `\D`, `\W`, `\S`, a negated class
and any non-ASCII literal are refused there.

A text matches a pattern when the first match that a left-to-right search
finds ends at the end of the text. The search prefers earlier alternatives and
greedier repetitions as written, and once a match has ended it drops every
thread that started later or ranks lower. So `k.*` matches `kx`, while `k|kx`
does not, and neither does `k` match `kk`.

The search runs the threads of a compiled program side by side, one step per
character, so its cost is the product of the text and program sizes.
-/

namespace KernelLaunch

namespace Pattern

/-- The highest code point. -/
def maxCode : Nat := 0x10FFFF

/-- Sorts closed ranges of code points and merges those that overlap or
touch; empty ranges are dropped. -/
def normalize (rs : List (Nat × Nat)) : List (Nat × Nat) :=
  let sorted := (rs.filter fun (lo, hi) => lo ≤ hi).mergeSort fun a b => a.1 ≤ b.1
  (sorted.foldl (fun acc (lo, hi) =>
    match acc with
    | (plo, phi) :: rest => if lo ≤ phi + 1 then (plo, Nat.max phi hi) :: rest else (lo, hi) :: acc
    | [] => [(lo, hi)]) []).reverse

/-- The code points outside sorted, merged ranges. -/
def complementRanges (rs : List (Nat × Nat)) : List (Nat × Nat) :=
  let (acc, next) := rs.foldl (fun (acc, next) (lo, hi) =>
    (if next < lo then (next, lo - 1) :: acc else acc, hi + 1)) ([], 0)
  (if next ≤ maxCode then (next, maxCode) :: acc else acc).reverse

/-- A set of characters: sorted closed ranges of code points, merged. -/
structure CharSet where
  ranges : List (Nat × Nat)
  deriving Repr, Inhabited, BEq

namespace CharSet

/-- The set of the code points in some ranges. -/
def ofRanges (rs : List (Nat × Nat)) : CharSet := ⟨normalize rs⟩

/-- The set of one character. -/
def single (c : Char) : CharSet := ⟨[(c.toNat, c.toNat)]⟩

/-- The set of every character. -/
def all : CharSet := ⟨[(0, maxCode)]⟩

/-- The characters in either set. -/
def union (a b : CharSet) : CharSet := ofRanges (a.ranges ++ b.ranges)

/-- The characters not in the set. -/
def compl (a : CharSet) : CharSet := ⟨complementRanges a.ranges⟩

/-- The characters in both sets. -/
def inter (a b : CharSet) : CharSet := (union a.compl b.compl).compl

/-- The characters of `a` not in `b`. -/
def minus (a b : CharSet) : CharSet := inter a b.compl

/-- The characters in exactly one of the sets. -/
def symmDiff (a b : CharSet) : CharSet := union (minus a b) (minus b a)

/-- The union of a list of sets. -/
def unionAll (ss : List CharSet) : CharSet := ofRanges (ss.flatMap (·.ranges))

/-- Whether the set holds a character. -/
def has (s : CharSet) (c : Char) : Bool :=
  s.ranges.any fun (lo, hi) => lo ≤ c.toNat && c.toNat ≤ hi

/-- Whether every character of the set is ASCII. -/
def isAscii (s : CharSet) : Bool := s.ranges.all fun (_, hi) => hi < 128

/-- The set with the other case of each ASCII letter it holds. -/
def foldAscii (s : CharSet) : CharSet :=
  let shift (lo hi : Nat) (up : Bool) : List (Nat × Nat) :=
    (inter s (ofRanges [(lo, hi)])).ranges.map fun (a, b) => if up then (a + 32, b + 32) else (a - 32, b - 32)
  ofRanges (s.ranges ++ shift 65 90 true ++ shift 97 122 false)

/-- The ASCII digits. -/
def asciiDigit : CharSet := ofRanges [(48, 57)]

/-- The ASCII white space: tab, line feed, vertical tab, form feed, carriage
return and space. -/
def asciiSpace : CharSet := ofRanges [(9, 13), (32, 32)]

/-- The ASCII word characters: letters, digits and the underscore. -/
def asciiWord : CharSet := ofRanges [(48, 57), (65, 90), (95, 95), (97, 122)]

/-- The named ASCII classes written `[:name:]` inside brackets. -/
def named? : String → Option CharSet
  | "alnum" => some (ofRanges [(48, 57), (65, 90), (97, 122)])
  | "alpha" => some (ofRanges [(65, 90), (97, 122)])
  | "ascii" => some (ofRanges [(0, 127)])
  | "blank" => some (ofRanges [(9, 9), (32, 32)])
  | "cntrl" => some (ofRanges [(0, 31), (127, 127)])
  | "digit" => some asciiDigit
  | "graph" => some (ofRanges [(33, 126)])
  | "lower" => some (ofRanges [(97, 122)])
  | "print" => some (ofRanges [(32, 126)])
  | "punct" => some (ofRanges [(33, 47), (58, 64), (91, 96), (123, 126)])
  | "space" => some asciiSpace
  | "upper" => some (ofRanges [(65, 90)])
  | "word" => some asciiWord
  | "xdigit" => some (ofRanges [(48, 57), (65, 70), (97, 102)])
  | _ => none

end CharSet

/-- Positions a pattern may require: the ends of the text; in multi-line
mode the ends of a line, where a carriage return may also end one; and the
edges of ASCII words. -/
inductive Anchor where
  | textStart
  | textEnd
  | lineStart (crlf : Bool)
  | lineEnd (crlf : Bool)
  | wordBoundary
  | notWordBoundary
  | wordStart
  | wordEnd
  | wordStartHalf
  | wordEndHalf
  deriving Repr, Inhabited, BEq

/-- The syntax of a pattern. A repetition knows its least and most counts
and whether it prefers more. -/
inductive Regex where
  | empty
  | chars (s : CharSet)
  | anchor (a : Anchor)
  | seq (a b : Regex)
  | alt (a b : Regex)
  | rep (r : Regex) (least : Nat) (most : Option Nat) (greedy : Bool)
  deriving Repr, Inhabited

namespace Regex

/-- `a` then `b`, dropping an empty `a`. -/
def andThen : Regex → Regex → Regex
  | .empty, b => b
  | a, b => .seq a b

/-- The number of steps the compiled pattern takes. -/
def steps : Regex → Nat
  | .empty => 0
  | .chars _ => 1
  | .anchor _ => 1
  | .seq a b => a.steps + b.steps
  | .alt a b => a.steps + b.steps + 1
  | .rep r least most _ => r.steps * (max least (most.getD least) + 1) + 1

end Regex

/-- The mode flags of a group. Unicode mode is on unless turned off. -/
structure Flags where
  caseless : Bool := false
  multiLine : Bool := false
  dotAll : Bool := false
  swapGreed : Bool := false
  verbose : Bool := false
  unicode : Bool := true
  crlf : Bool := false
  deriving Inhabited

/-- Drops white space and `#` comments, which run to the end of the line. -/
def dropBlank (inComment : Bool) : List Char → List Char
  | [] => []
  | c :: rest =>
      if inComment then dropBlank (c != '\n') rest
      else if Text.isBlank c then dropBlank false rest
      else if c == '#' then dropBlank true rest
      else c :: rest

/-- In verbose mode, skips the white space and comments ahead. -/
def skipBlank (fl : Flags) (cs : List Char) : List Char :=
  if fl.verbose then dropBlank false cs else cs

/-- The value of a hexadecimal digit. -/
def hexValue? (c : Char) : Option Nat :=
  let n := c.toNat
  if 48 ≤ n && n ≤ 57 then some (n - 48)
  else if 97 ≤ n && n ≤ 102 then some (n - 87)
  else if 65 ≤ n && n ≤ 70 then some (n - 55)
  else none

/-- Reads exactly `n` hexadecimal digits. -/
def fixedHex : Nat → Nat → List Char → Option (Nat × List Char)
  | 0, acc, cs => some (acc, cs)
  | n + 1, acc, c :: cs => (hexValue? c).bind fun v => fixedHex n (acc * 16 + v) cs
  | _ + 1, _, [] => none

/-- Reads hexadecimal digits up to a closing brace, at least one. -/
def bracedHex (acc count : Nat) : List Char → Option (Nat × List Char)
  | '}' :: cs => if count == 0 then none else some (acc, cs)
  | c :: cs => (hexValue? c).bind fun v => bracedHex (acc * 16 + v) (count + 1) cs
  | [] => none

/-- The character of a code point, when it is one. -/
def codePoint? (n : Nat) : Option Char :=
  if n < 0xD800 || (0xDFFF < n && n < 0x110000) then some (Char.ofNat n) else none

/-- Reads a code point written in hexadecimal after `\x`, `\u` or `\U`:
braced, or with exactly `width` digits. -/
def hexEscape (width : Nat) : List Char → Option (Char × List Char)
  | '{' :: cs => do
      let (n, rest) ← bracedHex 0 0 cs
      let c ← codePoint? n
      pure (c, rest)
  | cs => do
      let (n, rest) ← fixedHex width 0 cs
      let c ← codePoint? n
      pure (c, rest)

/-- Whether a character may be escaped to stand for itself: ASCII that is
neither a letter, a digit nor an angle bracket. -/
def isEscapable (c : Char) : Bool :=
  c.toNat < 128 && !c.isAlphanum && c != '<' && c != '>'

/-- What an escape stands for. -/
inductive Escaped where
  | char (c : Char)
  | set (s : CharSet)
  | anchor (a : Anchor)

/-- An ASCII class written with a backslash, or its negation; only outside
Unicode mode. -/
def asciiClass (fl : Flags) (s : CharSet) (negated : Bool) : Option Escaped :=
  if fl.unicode then none else some (.set (if negated then s.compl else s))

/-- An ASCII word boundary; only outside Unicode mode. -/
def asciiLook (fl : Flags) (a : Anchor) : Option Escaped :=
  if fl.unicode then none else some (.anchor a)

/-- A code point written in hexadecimal; outside Unicode mode it must be
ASCII. -/
def codeEscape (fl : Flags) (r : Option (Char × List Char)) : Option (Escaped × List Char) :=
  match r with
  | some (c, rest) => if !fl.unicode && c.toNat ≥ 128 then none else some (.char c, rest)
  | none => none

/-- Reads an escape after its backslash. -/
def escape (fl : Flags) : List Char → Option (Escaped × List Char)
  | 'd' :: cs => (asciiClass fl CharSet.asciiDigit false).map (·, cs)
  | 'D' :: cs => (asciiClass fl CharSet.asciiDigit true).map (·, cs)
  | 'w' :: cs => (asciiClass fl CharSet.asciiWord false).map (·, cs)
  | 'W' :: cs => (asciiClass fl CharSet.asciiWord true).map (·, cs)
  | 's' :: cs => (asciiClass fl CharSet.asciiSpace false).map (·, cs)
  | 'S' :: cs => (asciiClass fl CharSet.asciiSpace true).map (·, cs)
  | 'b' :: '{' :: c :: cs =>
      if c.isAlpha || c == '-' then
        let word := (c :: cs).takeWhile fun d => d.isAlpha || d == '-'
        let look : Option Anchor := match String.ofList word with
          | "start" => some .wordStart
          | "end" => some .wordEnd
          | "start-half" => some .wordStartHalf
          | "end-half" => some .wordEndHalf
          | _ => none
        match (c :: cs).dropWhile (fun d => d.isAlpha || d == '-') with
        | '}' :: rest => look.bind fun a => (asciiLook fl a).map (·, rest)
        | _ => none
      else (asciiLook fl .wordBoundary).map (·, '{' :: c :: cs)
  | 'b' :: cs => (asciiLook fl .wordBoundary).map (·, cs)
  | 'B' :: cs => (asciiLook fl .notWordBoundary).map (·, cs)
  | '<' :: cs => (asciiLook fl .wordStart).map (·, cs)
  | '>' :: cs => (asciiLook fl .wordEnd).map (·, cs)
  | 'n' :: cs => some (.char '\n', cs)
  | 't' :: cs => some (.char '\t', cs)
  | 'r' :: cs => some (.char '\r', cs)
  | 'f' :: cs => some (.char (Char.ofNat 12), cs)
  | 'v' :: cs => some (.char (Char.ofNat 11), cs)
  | 'a' :: cs => some (.char (Char.ofNat 7), cs)
  | 'x' :: cs => codeEscape fl (hexEscape 2 cs)
  | 'u' :: cs => codeEscape fl (hexEscape 4 cs)
  | 'U' :: cs => codeEscape fl (hexEscape 8 cs)
  | 'A' :: cs => some (.anchor .textStart, cs)
  | 'z' :: cs => some (.anchor .textEnd, cs)
  | c :: cs => if isEscapable c then some (.char c, cs) else none
  | [] => none

/-- Reads a decimal count, at least one digit. -/
def decimal (acc count : Nat) : List Char → Option (Nat × List Char)
  | c :: cs =>
      if c.isDigit then decimal (acc * 10 + (c.toNat - 48)) (count + 1) cs
      else if count == 0 then none else some (acc, c :: cs)
  | [] => if count == 0 then none else some (acc, [])

/-- Reads the inside of a counted repetition after its opening brace:
`n}`, `n,}` or `n,m}`. -/
def counts (cs : List Char) : Option ((Nat × Option Nat) × List Char) := do
  let (least, rest) ← decimal 0 0 cs
  match rest with
  | '}' :: more => pure ((least, some least), more)
  | ',' :: '}' :: more => pure ((least, none), more)
  | ',' :: more =>
      let (most, after) ← decimal 0 0 more
      match after with
      | '}' :: tail => if least ≤ most then pure ((least, some most), tail) else none
      | _ => none
  | _ => none

/-- Whether a repetition prefers more: unless a `?` follows it, flipped in
the swapped-greed mode. -/
def greediness (fl : Flags) : List Char → Bool × List Char
  | '?' :: cs => (fl.swapGreed, cs)
  | cs => (!fl.swapGreed, cs)

/-- Applies the repetition operators that follow a piece. -/
def quantify (fl : Flags) : Nat → Regex → List Char → Option (Regex × List Char)
  | 0, r, cs => some (r, cs)
  | fuel + 1, r, cs =>
      match skipBlank fl cs with
      | '*' :: rest =>
          let (g, rest) := greediness fl rest
          quantify fl fuel (.rep r 0 none g) rest
      | '+' :: rest =>
          let (g, rest) := greediness fl rest
          quantify fl fuel (.rep r 1 none g) rest
      | '?' :: rest =>
          let (g, rest) := greediness fl rest
          quantify fl fuel (.rep r 0 (some 1) g) rest
      | '{' :: rest => do
          let ((least, most), rest) ← counts rest
          let (g, rest) := greediness fl rest
          quantify fl fuel (.rep r least most g) rest
      | _ => some (r, cs)

/-- The set a literal character stands for under the flags. Outside Unicode
mode it must be ASCII, and case is folded in the ASCII range; in Unicode mode
case cannot be folded. -/
def literal (fl : Flags) (c : Char) : Option CharSet :=
  if !fl.unicode && c.toNat ≥ 128 then none
  else if fl.caseless then
    if fl.unicode then none else some (CharSet.single c).foldAscii
  else some (CharSet.single c)

/-- The set an escape stands for outside brackets: outside Unicode mode it
may hold no character beyond ASCII. -/
def escapeAtom (fl : Flags) : Escaped → Option Regex
  | .char c => (literal fl c).map .chars
  | .set s => if !fl.unicode && !s.isAscii then none else some (.chars s)
  | .anchor a => some (.anchor a)

/-- Reads a named ASCII class after `[:`, up to `:]`; `^` first negates it. -/
def namedClass (cs : List Char) : Option (CharSet × List Char) :=
  let (negated, cs) := match cs with
    | '^' :: rest => (true, rest)
    | rest => (false, rest)
  let name := cs.takeWhile (· != ':')
  match cs.dropWhile (· != ':') with
  | ':' :: ']' :: rest =>
      (CharSet.named? (String.ofList name)).map fun s => (if negated then s.compl else s, rest)
  | _ => none

/-- Finishes a bracketed class: folds case, then negates. Unicode mode cannot
fold case, and outside it the class must stay within ASCII. -/
def finishClass (fl : Flags) (negated : Bool) (s : CharSet) : Option CharSet := do
  let s ← if fl.caseless then (if fl.unicode then none else some s.foldAscii) else some s
  let s := if negated then s.compl else s
  if !fl.unicode && !s.isAscii then none else some s

mutual

/-- Reads a bracketed class after its opening bracket, through its closing
bracket. -/
def bracket (fl : Flags) : Nat → List Char → Option (CharSet × List Char)
  | 0, _ => none
  | fuel + 1, cs => do
      let (negated, cs) := match cs with
        | '^' :: rest => (true, rest)
        | rest => (false, rest)
      let (set, rest) ← classOperands fl fuel none true cs
      let set ← finishClass fl negated set
      pure (set, rest)

/-- Reads the operands of a class, joined by `&&`, `--` or `~~`, through the
closing bracket. `acc` holds the operands read so far with their operator. -/
def classOperands (fl : Flags) : Nat → Option (CharSet → CharSet) → Bool → List Char →
    Option (CharSet × List Char)
  | 0, _, _, _ => none
  | fuel + 1, acc, first, cs => do
      let (items, rest) ← classUnion fl fuel first [] cs
      let operand := CharSet.unionAll items
      let joined := match acc with
        | some f => f operand
        | none => operand
      match rest with
      | ']' :: more => pure (joined, more)
      | '&' :: '&' :: more => classOperands fl fuel (some (CharSet.inter joined)) false more
      | '-' :: '-' :: more => classOperands fl fuel (some (CharSet.minus joined)) false more
      | '~' :: '~' :: more => classOperands fl fuel (some (CharSet.symmDiff joined)) false more
      | _ => none

/-- Reads the items of one operand of a class, up to a closing bracket or a
set operator, which it leaves. A closing bracket first in the class is a
literal. -/
def classUnion (fl : Flags) : Nat → Bool → List CharSet → List Char →
    Option (List CharSet × List Char)
  | 0, _, _, _ => none
  | fuel + 1, first, items, cs =>
      let cs := skipBlank fl cs
      match cs with
      | [] => none
      | ']' :: rest =>
          if first then classRange fl fuel items ']' rest
          else some (items, cs)
      | '&' :: '&' :: _ => some (items, cs)
      | '-' :: '-' :: _ => some (items, cs)
      | '~' :: '~' :: _ => some (items, cs)
      | '[' :: rest =>
          let named := match rest with
            | ':' :: more => namedClass more
            | _ => none
          match named with
          | some (s, more) => classUnion fl fuel false (s :: items) more
          | none => do
              let (s, more) ← bracket fl fuel rest
              classUnion fl fuel false (s :: items) more
      | '\\' :: rest => do
          let (e, more) ← escape fl rest
          match e with
          | .char c => classRange fl fuel items c more
          | .set s => classUnion fl fuel false (s :: items) more
          | .anchor _ => none
      | c :: rest => classRange fl fuel items c rest

/-- After a character of a class: reads a range when a `-` follows that is
not before `]` or another `-`, then goes on with the items. -/
def classRange (fl : Flags) : Nat → List CharSet → Char → List Char →
    Option (List CharSet × List Char)
  | 0, _, _, _ => none
  | fuel + 1, items, lo, cs =>
      match cs with
      | '-' :: c :: rest =>
          if c == ']' || c == '-' then classUnion fl fuel false (CharSet.single lo :: items) cs
          else do
            let (hi, more) ← match c with
              | '\\' => do
                  let (e, more) ← escape fl rest
                  match e with
                  | .char h => pure (h, more)
                  | _ => none
              | '[' => none
              | h => pure (h, rest)
            if lo.toNat ≤ hi.toNat then
              classUnion fl fuel false (CharSet.ofRanges [(lo.toNat, hi.toNat)] :: items) more
            else none
      | _ => classUnion fl fuel false (CharSet.single lo :: items) cs

end

/-- How a parenthesis opens: a group with its flags and name, or a change
of the flags for the rest of the enclosing group. -/
inductive Opening where
  | group (fl : Flags) (name : Option String)
  | setFlags (fl : Flags)

/-- Sets a flag by its letter, on or off. -/
def Flags.set (fl : Flags) (on : Bool) : Char → Option Flags
  | 'i' => some { fl with caseless := on }
  | 'm' => some { fl with multiLine := on }
  | 's' => some { fl with dotAll := on }
  | 'U' => some { fl with swapGreed := on }
  | 'x' => some { fl with verbose := on }
  | 'u' => some { fl with unicode := on }
  | 'R' => some { fl with crlf := on }
  | _ => none

/-- Reads the flags of `(?flags)` or `(?flags:`, after the `?`: each letter
at most once, at most one `-` and a letter after it, and at least one
letter. `seen` holds the letters read so far. -/
def groupFlags (fl : Flags) (negate afterDash : Bool) (seen : List Char) :
    List Char → Option (Opening × List Char)
  | ':' :: rest => if !seen.isEmpty && !afterDash then some (.group fl none, rest) else none
  | ')' :: rest => if !seen.isEmpty && !afterDash then some (.setFlags fl, rest) else none
  | '-' :: rest => if negate then none else groupFlags fl true true seen rest
  | c :: rest =>
      if seen.contains c then none
      else (fl.set (!negate) c).bind fun fl => groupFlags fl negate false (c :: seen) rest
  | [] => none

/-- Whether a character may appear in a group name, first or later. -/
def isNameChar (first : Bool) (c : Char) : Bool :=
  if first then c == '_' || (Text.isAlphanumeric c && !c.isDigit)
  else c == '_' || c == '.' || c == '[' || c == ']' || Text.isAlphanumeric c

/-- Reads a group name up to `>`. -/
def groupName (fl : Flags) (cs : List Char) : Option (Opening × List Char) :=
  let name := cs.takeWhile (isNameChar false)
  match name, cs.dropWhile (isNameChar false) with
  | c :: _, '>' :: rest => if isNameChar true c then some (.group fl (some (String.ofList name)), rest) else none
  | _, _ => none

/-- Reads what follows an opening parenthesis. -/
def opening (fl : Flags) : List Char → Option (Opening × List Char)
  | '?' :: ':' :: rest => some (.group fl none, rest)
  | '?' :: 'P' :: '<' :: rest => groupName fl rest
  | '?' :: '<' :: rest => groupName fl rest
  | '?' :: rest => groupFlags fl false false [] rest
  | rest => some (.group fl none, rest)

/-- The set `.` stands for under the flags: any character but a line feed,
and a carriage return in CRLF mode, or any at all in dot-all mode. Outside
Unicode mode it is refused. -/
def dot (fl : Flags) : Option CharSet :=
  if !fl.unicode then none
  else if fl.dotAll then some CharSet.all
  else if fl.crlf then some (CharSet.ofRanges [(10, 10), (13, 13)]).compl
  else some (CharSet.single '\n').compl

/-- The anchor `^` or `$` stands for under the flags. -/
def lineAnchor (fl : Flags) (start : Bool) : Anchor :=
  if fl.multiLine then (if start then .lineStart fl.crlf else .lineEnd fl.crlf)
  else if start then .textStart else .textEnd

mutual

/-- Reads alternatives separated by bars, up to a closing parenthesis or the
end. Flags set inside carry over to the alternatives after; `names` are the
group names taken so far, which may not repeat. -/
def alternation : Nat → Flags → List String → List Char →
    Option (Regex × List Char × Flags × List String)
  | 0, _, _, _ => none
  | fuel + 1, fl, names, cs => do
      let (r, rest, fl, names) ← concatenation fuel fl names .empty cs
      match rest with
      | '|' :: more =>
          let (r2, rest2, fl2, names) ← alternation fuel fl names more
          pure (.alt r r2, rest2, fl2, names)
      | _ => pure (r, rest, fl, names)

/-- Reads pieces, each an atom with its repetitions, up to a bar, a closing
parenthesis or the end. -/
def concatenation : Nat → Flags → List String → Regex → List Char →
    Option (Regex × List Char × Flags × List String)
  | 0, _, _, _, _ => none
  | fuel + 1, fl, names, acc, cs =>
      let cs := skipBlank fl cs
      match cs with
      | [] => some (acc, cs, fl, names)
      | '|' :: _ => some (acc, cs, fl, names)
      | ')' :: _ => some (acc, cs, fl, names)
      | '(' :: rest => do
          let (o, rest) ← opening fl rest
          match o with
          | .setFlags fl2 => concatenation fuel fl2 names acc rest
          | .group inner name => do
              let names ← match name with
                | some n => if names.contains n then none else some (n :: names)
                | none => some names
              let (r, after, _, names) ← alternation fuel inner names rest
              match after with
              | ')' :: more =>
                  let (piece, more) ← quantify fl (more.length + 1) r more
                  concatenation fuel fl names (acc.andThen piece) more
              | _ => none
      | '[' :: rest => do
          let (s, more) ← bracket fl (3 * rest.length + 4) rest
          let (piece, more) ← quantify fl (more.length + 1) (.chars s) more
          concatenation fuel fl names (acc.andThen piece) more
      | '\\' :: rest => do
          let (e, more) ← escape fl rest
          let atom ← escapeAtom fl e
          let (piece, more) ← quantify fl (more.length + 1) atom more
          concatenation fuel fl names (acc.andThen piece) more
      | c :: rest =>
          if c == '*' || c == '+' || c == '?' || c == '{' then none
          else do
            let atom ← if c == '.' then (dot fl).map Regex.chars
              else if c == '^' then some (.anchor (lineAnchor fl true))
              else if c == '$' then some (.anchor (lineAnchor fl false))
              else (literal fl c).map Regex.chars
            let (piece, more) ← quantify fl (rest.length + 1) atom rest
            concatenation fuel fl names (acc.andThen piece) more

end

/-- One step of a compiled pattern. -/
inductive Step where
  | read (s : CharSet) (next : Nat)
  | fork (first second : Nat)
  | check (a : Anchor) (next : Nat)
  | accept
  deriving Inhabited

/-- Appends a step and returns its index. -/
def emit (prog : Array Step) (s : Step) : Nat × Array Step := (prog.size, prog.push s)

/-- `n` optional copies, each nested in the one before, ahead of `k`. -/
def optionals (body : Nat → Array Step → Nat × Array Step) (greedy : Bool) (k : Nat) :
    Nat → Nat → Array Step → Nat × Array Step
  | 0, next, prog => (next, prog)
  | n + 1, next, prog =>
      let (entry, prog) := body next prog
      let (choice, prog) := emit prog (if greedy then .fork entry k else .fork k entry)
      optionals body greedy k n choice prog

/-- `n` copies in a row ahead of `next`. -/
def copies (body : Nat → Array Step → Nat × Array Step) : Nat → Nat → Array Step → Nat × Array Step
  | 0, next, prog => (next, prog)
  | n + 1, next, prog =>
      let (entry, prog) := body next prog
      copies body n entry prog

/-- Compiles a pattern ahead of the step `k`, returning its entry. Steps are
appended, so a step only jumps to steps before it or to itself through a
loop. -/
def compile : Regex → Nat → Array Step → Nat × Array Step
  | .empty, k, prog => (k, prog)
  | .chars s, k, prog => emit prog (.read s k)
  | .anchor a, k, prog => emit prog (.check a k)
  | .seq a b, k, prog =>
      let (eb, prog) := compile b k prog
      compile a eb prog
  | .alt a b, k, prog =>
      let (ea, prog) := compile a k prog
      let (eb, prog) := compile b k prog
      emit prog (.fork ea eb)
  | .rep r least most greedy, k, prog =>
      let body := fun next p => compile r next p
      let (tail, prog) := match most with
        | some m => optionals body greedy k (m - least) k prog
        | none =>
            let (loop, prog) := emit prog (.fork 0 0)
            let (entry, prog) := body loop prog
            (loop, prog.set! loop (if greedy then .fork entry k else .fork k entry))
      copies body least tail prog

/-- The most steps a pattern may compile to. -/
def stepLimit : Nat := 100000

end Pattern

/-- A compiled pattern with the text it was read from. -/
structure Pattern where
  source : String
  program : Array Pattern.Step
  start : Nat
  deriving Inhabited

namespace Pattern

/-- Reads a pattern; `none` when the text is not one. -/
def parse? (source : String) : Option Pattern := do
  let cs := source.toList
  let (r, rest, _, _) ← alternation (2 * cs.length + 4) {} [] cs
  if !rest.isEmpty then none
  if r.steps > stepLimit then none
  let (start, program) := compile r 0 #[Step.accept]
  pure { source, program, start }

/-- Whether the character at a position is an ASCII word character. -/
def wordAt (input : Array Char) (pos : Nat) : Bool :=
  match input[pos]? with
  | some c => CharSet.asciiWord.has c
  | none => false

/-- Whether an anchor holds at a position of the text. -/
def Anchor.holds (input : Array Char) (pos : Nat) : Anchor → Bool
  | .textStart => pos == 0
  | .textEnd => pos == input.size
  | .lineStart crlf =>
      pos == 0 || input[pos - 1]? == some '\n' ||
        (crlf && input[pos - 1]? == some '\r' && input[pos]? != some '\n')
  | .lineEnd crlf =>
      pos == input.size || input[pos]? == some '\n' && !(crlf && pos > 0 && input[pos - 1]? == some '\r') ||
        (crlf && input[pos]? == some '\r')
  | .wordBoundary => (pos > 0 && wordAt input (pos - 1)) != wordAt input pos
  | .notWordBoundary => (pos > 0 && wordAt input (pos - 1)) == wordAt input pos
  | .wordStart => !(pos > 0 && wordAt input (pos - 1)) && wordAt input pos
  | .wordEnd => (pos > 0 && wordAt input (pos - 1)) && !wordAt input pos
  | .wordStartHalf => !(pos > 0 && wordAt input (pos - 1))
  | .wordEndHalf => !wordAt input pos

/-- Adds to `out`, in order of preference, the reading and accepting steps
that the steps on the stack reach at a position without reading. A step
already seen at this position is not added again. -/
def closure (prog : Array Step) (input : Array Char) (pos : Nat) :
    Nat → List Nat → Array Bool → Array Nat → Array Bool × Array Nat
  | 0, _, seen, out => (seen, out)
  | _ + 1, [], seen, out => (seen, out)
  | fuel + 1, pc :: stack, seen, out =>
      if seen[pc]?.getD true then closure prog input pos fuel stack seen out
      else
        let seen := seen.set! pc true
        match prog[pc]? with
        | some (.read _ _) => closure prog input pos fuel stack seen (out.push pc)
        | some .accept => closure prog input pos fuel stack seen (out.push pc)
        | some (.fork a b) => closure prog input pos fuel (a :: b :: stack) seen out
        | some (.check a n) =>
            if a.holds input pos then closure prog input pos fuel (n :: stack) seen out
            else closure prog input pos fuel stack seen out
        | none => closure prog input pos fuel stack seen out

/-- Enough fuel for one closure: every step is expanded once. -/
def closureFuel (prog : Array Step) : Nat := 2 * prog.size + 2

/-- Whether a step accepts. -/
def isAccept (prog : Array Step) (pc : Nat) : Bool :=
  match prog[pc]? with
  | some .accept => true
  | _ => false

/-- Moves the threads over one character at `pos`, in order, until one of
them has accepted: the threads after it are dropped, and so is the search for
later starts. -/
def stepThreads (p : Pattern) (input : Array Char) (pos : Nat) (c : Char) :
    List Nat → Array Bool × Array Nat → Array Bool × Array Nat × Bool
  | [], (seen, out) => (seen, out, false)
  | pc :: rest, (seen, out) =>
      match p.program[pc]? with
      | some .accept => (seen, out, true)
      | some (.read s n) =>
          if s.has c then
            stepThreads p input pos c rest
              (closure p.program input (pos + 1) (closureFuel p.program) [n] seen out)
          else stepThreads p input pos c rest (seen, out)
      | _ => stepThreads p input pos c rest (seen, out)

/-- Runs the threads over the rest of the text; `searching` says whether a
match may still start later. Returns the threads at the end. -/
def run (p : Pattern) (input : Array Char) : List Char → Nat → Array Nat → Bool → Array Nat
  | [], _, threads, _ => threads
  | c :: rest, pos, threads, searching =>
      let fresh := Array.replicate p.program.size false
      let (seen, next, cut) := stepThreads p input pos c threads.toList (fresh, #[])
      let searching := searching && !cut
      let next :=
        if searching then
          (closure p.program input (pos + 1) (closureFuel p.program) [p.start] seen next).2
        else next
      run p input rest (pos + 1) next searching

/-- Whether the text matches: the first match found ends at its end. -/
def accepts (p : Pattern) (text : String) : Bool :=
  let input := text.toList.toArray
  let fresh := Array.replicate p.program.size false
  let (_, threads) := closure p.program input 0 (closureFuel p.program) [p.start] fresh #[]
  (run p input text.toList 0 threads true).any (isAccept p.program)

end Pattern

end KernelLaunch
