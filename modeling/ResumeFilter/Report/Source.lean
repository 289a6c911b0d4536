import ResumeFilter.Text.Columns
import ResumeFilter.Text.Span

/-!
# A source as lines on a terminal

A report shows lines of the source and points at columns below them. Lines end at a newline, with or
without a carriage return in front of it, and a newline at the very end opens no further line.
-/

namespace ResumeFilter.Report

/-! ## Lines -/

/-- A line of the source. -/
structure Line where
  /-- The number of the line, the first one being number one. -/
  number : Nat
  /-- The place of the first character in the source. -/
  start : Nat
  text : List Char
  /-- How many bytes the end of the line takes. -/
  breakLength : Nat
deriving DecidableEq

namespace Line

/-- The place at which the line's text ends. -/
def textStop (line : Line) : Nat := line.start + Text.byteLength line.text

/-- The place at which the next line starts. -/
def stop (line : Line) : Nat := line.textStop + line.breakLength

end Line

/-- The line that ends at a newline after some characters, which come in reverse. -/
def endedLine (number start : Nat) : List Char → Line
  | '\r' :: before => ⟨number, start, before.reverse, 2⟩
  | before => ⟨number, start, before.reverse, 1⟩

/-- The lines of the rest of a source, of whose current line the characters `before` are known. -/
def linesFrom (number start : Nat) : List Char → List Char → List Line
  | [], [] => []
  | before, [] => [⟨number, start, before.reverse, 0⟩]
  | before, c :: cs =>
    if c = '\n' then
      let line := endedLine number start before
      line :: linesFrom (number + 1) line.stop [] cs
    else linesFrom number start (c :: before) cs

/-- The lines of a source; the empty source is one empty line. -/
def lines (source : List Char) : List Line :=
  if source.isEmpty then [⟨1, 0, [], 0⟩] else linesFrom 1 0 [] source

/-- The line that a place belongs to: the last one if it lies behind all of them. -/
def lineAt (lines : List Line) (offset : Nat) : Line :=
  (lines.find? fun line => line.start ≤ offset && offset < line.stop).getD
    (lines.getLast?.getD ⟨1, 0, [], 0⟩)

/-! ## What lines look like -/

/-- A character as it is shown: tabs as blanks, controls other than newlines by their pictures, and
marks that would change the direction of writing as replacement characters. -/
def shown (c : Char) : List Char :=
  if c = '\t' then [' ', ' ', ' ', ' ']
  else if c ≠ '\n' ∧ c.toNat < 0x20 then [Char.ofNat (0x2400 + c.toNat)]
  else if c.toNat = 0x7f then [Char.ofNat 0x2421]
  else if c.toNat = 0x200d then []
  else if Text.isDirectional c then [Char.ofNat 0xfffd]
  else [c]

/-- A text as it is shown. -/
def shownText (cs : List Char) : List Char := cs.flatMap shown

/-- Whether nothing would be lost by leaving a character out at the margin. -/
def isWhitespace (c : Char) : Bool :=
  Text.inRanges
    [(0x9, 0xd), (0x20, 0x20), (0x85, 0x85), (0xa0, 0xa0), (0x1680, 0x1680), (0x2000, 0x200a),
     (0x2028, 0x2029), (0x202f, 0x202f), (0x205f, 0x205f), (0x3000, 0x3000)]
    c.toNat

/-! ## Places -/

/-- A place as a line, the number of characters before it in the line, and the number of columns
before it; places that look alike still differ if their offsets in the source do. -/
structure Place where
  line : Nat
  chars : Nat
  column : Nat
  offset : Nat
deriving DecidableEq

namespace Place

/-- The place one character of one column further on. -/
def next (place : Place) : Place :=
  ⟨place.line, place.chars + 1, place.column + 1, place.offset + 1⟩

/-- The place one character of one column further back. -/
def previous (place : Place) : Place :=
  ⟨place.line, place.chars - 1, place.column - 1, place.offset - 1⟩

end Place

/-- A place of the source within its line. -/
def placeIn (line : Line) (offset : Nat) : Place :=
  let before := Text.takeBytes (min (offset - line.start) (Text.byteLength line.text)) line.text
  ⟨line.number, before.length, Text.width before, offset⟩

/-- Where a span starts; a place behind the text of its line counts as one more character. -/
def startPlace (lines : List Line) (span : Span) : Place :=
  let line := lineAt lines span.start
  let place := placeIn line span.start
  if line.textStop < span.start then { place with chars := place.chars + 1 } else place

/-- Where a span ends; behind the text of another line than the first it takes one more column. -/
def stopPlace (lines : List Line) (span : Span) : Place :=
  let line := lineAt lines span.stop
  let place := placeIn line span.stop
  if (lineAt lines span.start).number ≠ line.number ∧ line.textStop < span.stop then
    { place with chars := place.chars + 1, column := place.column + 1 }
  else place

end ResumeFilter.Report
