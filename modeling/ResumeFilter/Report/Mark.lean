import ResumeFilter.Report.Diagnostic
import ResumeFilter.Report.Source

/-!
# Marks on lines

A span within one line is marked by underlining it. A span over several lines is marked where it
starts and where it ends, and a bar in front of the lines, in a track of its own, connects the two.
Of a long span only the first lines and the last but one are shown between its ends.
-/

namespace ResumeFilter.Report

/-! ## Spans to mark -/

/-- A span to be marked, with its label. -/
structure Annotation where
  start : Place
  stop : Place
  /-- Whether this is the place of the error and not a related one. -/
  primary : Bool
  label : String
deriving DecidableEq

/-- The annotation of a span; a span without columns in its line takes one. -/
def Annotation.ofSpan (lines : List Line) (span : Span) (primary : Bool) (label : String) :
    Annotation :=
  let start := startPlace lines span
  let stop := if span.start = span.stop then start else stopPlace lines span
  if start.line = stop.line ∧ start.column = stop.column then
    ⟨start, { stop with column := stop.column + 1 }, primary, label⟩
  else ⟨start, stop, primary, label⟩

namespace Annotation

/-- Whether an annotation goes over more than one line. -/
def isLong (a : Annotation) : Bool := a.start.line ≠ a.stop.line

/-- Whether two annotations mark the same span. -/
def sameSpan (a b : Annotation) : Bool := a.start = b.start && a.stop = b.stop

/-- Whether two annotations have a line in common. -/
def sharesLine (a b : Annotation) : Bool := a.start.line ≤ b.stop.line && b.start.line ≤ a.stop.line

/-- Whether an annotation is given its track before another one. -/
def precedes (a b : Annotation) : Bool :=
  a.start.line < b.start.line || (a.start.line == b.start.line && b.stop.line ≤ a.stop.line)

end Annotation

/-! ## Marks -/

/-- What part of an annotation a mark is; those that belong to a bar name its track. -/
inductive Mark.Shape
  | whole
  | opening (track : Nat)
  | passing (track : Nat)
  | closing (track : Nat)
deriving DecidableEq

/-- A mark on one line, from `start` up to `stop`. -/
structure Mark where
  start : Place
  stop : Place
  primary : Bool
  label : String
  shape : Mark.Shape
deriving DecidableEq

namespace Mark

/-- Whether a mark has something to say. -/
def hasLabel (mark : Mark) : Bool := !mark.label.isEmpty

/-- Whether a mark is only a bar in front of the line. -/
def isPassing (mark : Mark) : Bool :=
  match mark.shape with
  | .passing _ => true
  | _ => false

/-- Whether a mark is where a bar starts. -/
def isOpening (mark : Mark) : Bool :=
  match mark.shape with
  | .opening _ => true
  | _ => false

/-- The track of the bar that starts or ends at a mark. -/
def turn? (mark : Mark) : Option Nat :=
  match mark.shape with
  | .opening track => some track
  | .closing track => some track
  | _ => none

/-- Whether two marks overlap when the first is `padding` columns longer than it is. -/
def overlaps (a b : Mark) (padding : Nat) : Bool :=
  (b.start.column ≤ a.start.column && a.start.column < b.stop.column) ||
    (a.start.column ≤ b.start.column && b.start.column < a.stop.column + padding)

end Mark

namespace Annotation

/-- The mark of an annotation within a line. -/
def wholeMark (a : Annotation) : Mark :=
  ⟨a.start, a.stop, a.primary, a.label, .whole⟩

/-- The mark where a long annotation starts. -/
def openingMark (a : Annotation) (track : Nat) : Mark :=
  ⟨a.start, a.start.next, a.primary, "", .opening track⟩

/-- The mark on a line in the middle of a long annotation; it stands for the start of the line. -/
def passingMark (a : Annotation) (line track : Nat) : Mark :=
  ⟨⟨line, 0, 0, 0⟩, ⟨line, 0, 0, 0⟩, a.primary, "", .passing track⟩

/-- The mark where a long annotation ends, of a given shape. -/
def closingMark (a : Annotation) (shape : Mark.Shape) : Mark :=
  ⟨a.stop.previous, a.stop, a.primary, a.label, shape⟩

end Annotation

/-! ## Marks of long annotations -/

/-- Whether a line is worth showing in the middle of an annotation: more than a bracket or a
comment. -/
def isTelling (text : List Char) : Bool :=
  let trimmed := (text.dropWhile isWhitespace).reverse.dropWhile isWhitespace |>.reverse
  let comment := "//".toList.isPrefixOf trimmed &&
    !("///".toList.isPrefixOf trimmed || "//!".toList.isPrefixOf trimmed)
  let bare : List (List Char) := [[], ['{'], ['}'], ['('], [')'], ['['], [']']]
  !comment && !bare.contains trimmed

/-- The numbers of the lines between the ends of a long annotation that are to be shown. -/
def middleLines (lines : List Line) (a : Annotation) : List Nat :=
  let telling (number : Nat) : Bool :=
    match lines.find? (·.number == number) with
    | some line => isTelling line.text
    | none => false
  let middle := min (a.start.line + 4) a.stop.line
  let last := (List.range' a.start.line (middle - a.start.line)).reverse.find? telling
  let head := List.range' (a.start.line + 1) (last.getD a.start.line - a.start.line)
  let beforeEnd := a.stop.line - 1
  if middle < beforeEnd && telling beforeEnd then head ++ [beforeEnd] else head

/-- The marks of a long annotation in a track, each with the number of its line. -/
def longMarks (lines : List Line) (a : Annotation) (track : Nat) : List (Nat × Mark) :=
  (a.start.line, a.openingMark track) ::
    ((middleLines lines a).map fun number => (number, a.passingMark number track)) ++
    [(a.stop.line, a.closingMark (.closing track))]

/-- The marks of the long annotations among at most two, and the number of tracks that they take.

Annotations that share a line get a track each. Of two on the same span the first shows only its
end, and the bar of the other one is that of an error if either is. -/
def longMarksOf (lines : List Line) : List Annotation → List (Nat × Mark) × Nat
  | [] => ([], 0)
  | [a] => (longMarks lines a 1, 1)
  | a :: b :: _ =>
    let (a, b) := if a.precedes b then (a, b) else (b, a)
    if a.sameSpan b then
      let bar := { b with primary := a.primary || b.primary }
      ((a.stop.line, a.closingMark .whole) :: longMarks lines bar 1, 1)
    else if a.sharesLine b then (longMarks lines a 1 ++ longMarks lines b 2, 2)
    else (longMarks lines a 1 ++ longMarks lines b 1, 1)

/-! ## Marked lines -/

/-- A line to be shown, with its marks. -/
structure MarkedLine where
  line : Line
  marks : List Mark
deriving DecidableEq

/-- The lines that carry marks, in order, and the number of tracks in front of them. -/
def markedLines (lines : List Line) (annotations : List Annotation) : List MarkedLine × Nat :=
  let short := annotations.filter fun a => !a.isLong
  let (long, tracks) := longMarksOf lines (annotations.filter Annotation.isLong)
  let marks := (short.map fun a => (a.start.line, a.wholeMark)) ++ long
  let marked := lines.map fun line =>
    MarkedLine.mk line ((marks.filter (·.1 == line.number)).map (·.2))
  (marked.filter fun line => !line.marks.isEmpty, tracks)

end ResumeFilter.Report
