import KernelLaunch.Diagnostic
import KernelLaunch.Text.Style
import KernelLaunch.Text.Width
/-!
# Diagnostics shown against their source

A diagnostic with a place is shown as a report: a coloured headline, the file
name with the line and column, the lines of source its label covers with the
label drawn under them, and a closing rule.

The report counts positions in characters. The span of a diagnostic counts
bytes, and the report takes those numbers as character positions: in a text
with characters of several bytes the label lands further on, and a label
that runs past the end of the text is left out, with the source lines it
would have shown.

A label on one line is underlined, with a tick in the middle of its columns
from which an arrow leads to the message. A label over several lines gets a
bar in the margin from its first line to its last, lines in between folded
into one gap, and its message under the last line.
-/

namespace KernelLaunch

/-- The colours of a report. -/
inductive Paint where
  | red
  | yellow
  | fixed (n : Nat)
  deriving DecidableEq, Repr, Inhabited

namespace Paint

/-- The style code of a colour. -/
def code : Paint → String
  | .red => "31"
  | .yellow => "33"
  | .fixed n => "38;5;" ++ toString n

/-- Text in a colour. -/
def apply (p : Paint) (text : String) : String := styled p.code text

/-- The colour of the frame. -/
def frame : Paint := .fixed 246

/-- The colour of the margin beside lines that are not shown in full. -/
def faint : Paint := .fixed 240

/-- The colour of source text outside the label. -/
def plain : Paint := .fixed 249

/-- The colour of the help and note words. -/
def aside : Paint := .fixed 115

end Paint

/-- A line of a source text: where it starts, in characters, and its
characters with the line break that ends it. -/
structure SourceLine where
  offset : Nat
  chars : List Char
  deriving Inhabited

namespace SourceLine

/-- The number of characters, the line break included. -/
def len (l : SourceLine) : Nat := l.chars.length

/-- Whether a character position lies on the line, its break included. -/
def holds (l : SourceLine) (x : Nat) : Bool := l.offset ≤ x && x < l.offset + l.len

/-- The characters shown: the line without trailing white space. -/
def shown (l : SourceLine) : List Char := (l.chars.reverse.dropWhile Text.isBlank).reverse

end SourceLine

/-- Whether a character breaks lines. -/
def isLineBreak (c : Char) : Bool :=
  c == '\r' || c == '\n' || c == '\x0B' || c == '\x0C' || c.toNat == 0x85 || c.toNat == 0x2028 ||
    c.toNat == 0x2029

/-- Splits characters into lines, each ending after its break; a carriage
return and a line feed are one break. -/
def breakLines (cur : List Char) : List Char → List (List Char)
  | [] => if cur.isEmpty then [] else [cur.reverse]
  | '\r' :: '\n' :: rest => ('\n' :: '\r' :: cur).reverse :: breakLines [] rest
  | c :: rest =>
      if isLineBreak c then (c :: cur).reverse :: breakLines [] rest
      else breakLines (c :: cur) rest

/-- The lines of a text; an empty text has one empty line. -/
def sourceLines (text : String) : Array SourceLine :=
  let pieces := match breakLines [] text.toList with
    | [] => [[]]
    | ps => ps
  (pieces.foldl (fun (acc, off) cs => (acc.push { offset := off, chars := cs }, off + cs.length))
    ((#[] : Array SourceLine), 0)).1

/-- The line holding a character position and the column in it: the last
line starting at or before it, for positions up to the end of the text. -/
def lineAt (lines : Array SourceLine) (total x : Nat) : Option (Nat × Nat) :=
  if x > total then none
  else
    let idx := ((List.range lines.size).filter fun i => ((lines[i]?.map (·.offset)).getD 0) ≤ x).getLastD 0
    some (idx, x - ((lines[idx]?.map (·.offset)).getD 0))

/-- The number of decimal digits of a positive number. -/
def digitCount (n : Nat) : Nat := (toString n).length

/-- The label of a report, in character positions. -/
structure ReportLabel where
  start : Nat
  stop : Nat
  message : String
  paint : Paint
  multiline : Bool
  deriving Inhabited

namespace ReportLabel

/-- The last position the label covers. -/
def last (l : ReportLabel) : Nat := max (l.stop - 1) l.start

/-- Whether the label covers a position. -/
def covers (l : ReportLabel) (x : Nat) : Bool := l.start ≤ x && x < l.stop

end ReportLabel

/-- Where the label is drawn on one line: its column, whether it is the end
of a label over several lines, and whether its message goes here. -/
structure LineMark where
  col : Nat
  multi : Bool
  drawMessage : Bool
  deriving Inhabited

/-- The columns a character takes when drawn at a column; tabs reach the
next multiple of four. -/
def cellWidth (c : Char) (col : Nat) : Nat :=
  if c == '\t' then (col / 4 + 1) * 4 - col
  else if Text.isBlank c then 1
  else Text.columns c

/-- What a report draws: the label, the lines, the width of line numbers. -/
structure Sheet where
  label : ReportLabel
  lines : Array SourceLine
  numberWidth : Nat
  deriving Inhabited

namespace Sheet

/-- The line at an index. -/
def line (s : Sheet) (idx : Nat) : SourceLine := s.lines[idx]?.getD default

/-- The two characters of one margin column for a label over several lines. -/
def marginColumn (s : Sheet) (idx col : Nat) (isLine isEllipsis : Bool) (reportRow : Option (Nat × Bool))
    (onMargin : Bool) : String :=
  let l := s.label
  let ln := s.line idx
  let isParent := col != 0
  let overlaps := l.start ≤ ln.offset + ln.len && l.stop > ln.offset
  let isStart := ln.holds l.start
  let isEnd := ln.holds l.last
  -- (corner, hbar, vbar, pointer), each about the one label
  let (corner, hbar, vbar, pointer) : Option Bool × Bool × Bool × Option Bool :=
    if !overlaps then (none, false, false, none)
    else if onMargin && isLine then (none, false, false, some isStart)
    else if !isStart && (!isEnd || isLine) then (none, false, !isParent, none)
    else match reportRow with
      | none => (none, false, false, none)
      | some (row, isArrow) =>
          if row == 0 then
            let vbar0 := if onMargin then col == 0 else false
            if onMargin && isStart then (none, false, vbar0, none)
            else if isArrow then ((if isParent then none else some isStart), true, vbar0, none)
            else (none, false, vbar0 || (!isStart && !isParent), none)
          else (none, false, !isParent && isStart, none)
  let isCol := col == 0
  let hbar := hbar || (pointer.isSome && isLine && !isCol && col + 1 != 1)
  let hbar := hbar && (!onMargin || !isLine)
  let red := l.paint.apply
  match corner with
  | some st => red (if st then "╭" else "╰") ++ red "─"
  | none =>
      if hbar then red "─" ++ red "─"
      else if vbar then red (if isEllipsis then "┆" else "│") ++ " "
      else match pointer with
        | some st =>
            if isLine then
              let limit := col == 1
              red (if limit then "▶" else if isCol then (if st then "╭" else "├") else "─") ++
                red (if limit then " " else "─")
            else "  "
        | none => "  "

/-- The margin before a row: the line number or a bar, then the columns of a
label over several lines. -/
def margin (s : Sheet) (idx : Nat) (isLine isEllipsis drawLabels : Bool) (reportRow : Option (Nat × Bool))
    (onMargin : Bool) : String :=
  let number :=
    if isLine && !isEllipsis then
      let n := toString (idx + 1)
      Paint.frame.apply ("".pushn ' ' (s.numberWidth - n.length) ++ n ++ " │")
    else Paint.faint.apply ("".pushn ' ' (s.numberWidth + 1) ++ (if isEllipsis then "┆" else "│"))
  let columns :=
    if drawLabels && s.label.multiline then
      String.join ([0, 1].map fun col => s.marginColumn idx col isLine isEllipsis reportRow onMargin)
    else ""
  " " ++ number ++ " " ++ columns

/-- The source characters of a line, each in the colour of what covers it. -/
def sourceRow (s : Sheet) (ln : SourceLine) : String :=
  String.join ((ln.shown.zipIdx).map fun (c, col) =>
    let p := if s.label.covers (ln.offset + col) then s.label.paint else Paint.plain
    if c == '\t' then String.join (List.replicate (cellWidth c col) (p.apply " "))
    else if Text.isBlank c then p.apply " "
    else p.apply c.toString)

/-- The cells of a row under a line: for each column up to `len`, the first
character drawn and the one repeated over the rest of a wide character. -/
def cells (ln : SourceLine) (len : Nat) (draw : Nat → String × String) : String :=
  String.join ((List.range len).map fun col =>
    let width := match ln.shown[col]? with
      | some c => cellWidth c col
      | none => 1
    let (first, rest) := draw col
    if width == 0 then "" else first ++ String.join (List.replicate (width - 1) rest))

/-- The rows drawn for one source line, and whether the next line is folded. -/
def lineRows (s : Sheet) (idx : Nat) (isEllipsis : Bool) : String × Bool :=
  let l := s.label
  let ln := s.line idx
  let isStart := ln.holds l.start
  let isEnd := ln.holds l.last
  let marginMark : Option LineMark :=
    if !l.multiline then none
    else if isStart then some { col := l.start - ln.offset, multi := true, drawMessage := false }
    else if isEnd then some { col := l.last - ln.offset, multi := true, drawMessage := true }
    else none
  let marks : List LineMark :=
    if l.multiline then
      (if isStart then [] else if isEnd then [{ col := l.last - ln.offset, multi := true, drawMessage := true }]
       else [])
    else if l.start ≥ ln.offset && l.stop ≤ ln.offset + ln.len then
      [{ col := max ((l.start + l.stop) / 2) l.start - ln.offset, multi := false, drawMessage := true }]
    else []
  let onMargin := marginMark.isSome
  if marks.isEmpty && marginMark.isNone then
    let within := l.multiline && l.covers ln.offset
    if !isEllipsis && within then
      (s.margin idx true true true none onMargin ++ "\n", true)
    else if !isEllipsis then (s.margin idx false false false none onMargin ++ "\n", true)
    else ("", true)
  else
    let arrowLen := (marks.foldl (fun acc m => if m.multi then ln.len else max acc (l.stop - ln.offset)) 0) + 2
    let head := s.margin idx true false true none onMargin ++ s.sourceRow ln ++ "\n"
    let red := l.paint.apply
    let arrows := marks.map fun m =>
      let tick (col : Nat) : Bool := col == m.col && !onMargin
      let under (col : Nat) : Bool := !m.multi && l.covers (ln.offset + col)
      let upper := s.margin idx false false true (some (0, false)) onMargin ++
        cells ln arrowLen (fun col =>
          if tick col then
            if under col then (red "┬", red "─")
            else if m.multi then (red "▲", red " ")
            else (red "│", red " ")
          else if under col then (red "─", red "─")
          else (" ", " ")) ++ "\n"
      let lower := s.margin idx false false true (some (0, true)) onMargin ++
        cells ln arrowLen (fun col =>
          let isHbar := ((col > m.col) != m.multi) || (m.drawMessage && col > m.col)
          if col == m.col && !onMargin then
            (red (if m.multi then (if m.drawMessage then "┴" else "╯") else "╰"), red "─")
          else if isHbar then (red "─", red "─")
          else (" ", " ")) ++
        (if m.drawMessage then " " ++ l.message else "") ++ "\n"
      upper ++ lower
    (head ++ String.join arrows, false)

/-- The help or note line, after an empty margin row. -/
def aside (s : Sheet) (word text : String) : String :=
  s.margin 0 false false true (some (0, false)) false ++ "\n" ++
    s.margin 0 false false true (some (0, false)) false ++ Paint.aside.apply word ++ ": " ++ text ++ "\n"

end Sheet

/-- The report of a diagnostic against the source of the named file. -/
def Diagnostic.report (d : Diagnostic) (file source : String) : String :=
  let (word, paint) := match d.severity with
    | .error => ("Error", Paint.red)
    | .warning => ("Warning", Paint.yellow)
  let headline := paint.apply (word ++ ":") ++ " " ++ d.message ++ "\n"
  let bytes := source.utf8ByteSize
  let start := min d.span.start bytes
  let stop := min (max d.span.stop start) bytes
  let lines := sourceLines source
  let total := source.length
  let body : Option String := do
    let (first, col) ← lineAt lines total start
    let (lastLine, _) ← if start ≥ stop then some (first, col) else lineAt lines total (stop - 1)
    let label : ReportLabel :=
      { start, stop, message := d.message, paint, multiline := first != lastLine }
    let sheet : Sheet := { label, lines, numberWidth := digitCount (lastLine + 1) }
    let top := "".pushn ' ' (sheet.numberWidth + 2) ++ Paint.frame.apply "╭" ++ Paint.frame.apply "─" ++
      Paint.frame.apply "[" ++ file ++ ":" ++ toString (first + 1) ++ ":" ++ toString (col + 1) ++
      Paint.frame.apply "]" ++ "\n" ++ "".pushn ' ' (sheet.numberWidth + 2) ++ Paint.frame.apply "│" ++ "\n"
    let (rows, _) := (List.range' first (lastLine + 1 - first)).foldl (fun (acc, folded) idx =>
      let (text, folded) := sheet.lineRows idx folded
      (acc ++ text, folded)) ("", false)
    let help := match d.help with
      | some h => sheet.aside "Help" h
      | none => ""
    let note := match d.notes.getLast? with
      | some n => sheet.aside "Note" n
      | none => ""
    let bottom := Paint.frame.apply ("".pushn '─' (sheet.numberWidth + 2) ++ "╯") ++ "\n"
    pure (top ++ rows ++ help ++ note ++ bottom)
  headline ++ body.getD ""

end KernelLaunch
