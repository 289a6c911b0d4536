import ResumeFilter.Report.Canvas
import ResumeFilter.Report.Mark

/-!
# Drawing marked lines

Below a line of the source comes a row with its marks. A label stands behind its mark as long as it
leaves room for the marks to its right; otherwise it hangs further down, at the end of a rod.
-/

namespace ResumeFilter.Report

/-! ## The frame -/

/-- What all lines of a report have in common. -/
structure Frame where
  /-- The width of the column of line numbers. -/
  numberWidth : Nat
  /-- The number of tracks for bars between the line numbers and the text. -/
  tracks : Nat
  /-- How many columns of common indentation are left out. -/
  cut : Nat
deriving DecidableEq

namespace Frame

/-- The column of the rule between the line numbers and the text. -/
def ruleColumn (frame : Frame) : Nat := frame.numberWidth + 1

/-- The column of the bars in a track. -/
def barColumn (frame : Frame) (track : Nat) : Nat := frame.numberWidth + 2 + track

/-- The column in which the text starts. -/
def textColumn (frame : Frame) : Nat :=
  frame.numberWidth + 3 + (if frame.tracks = 0 then 0 else frame.tracks + 1)

/-- The column below a place of the source. -/
def column (frame : Frame) (place : Place) : Nat := frame.textColumn + place.column - frame.cut

/-- How many columns of a line are left out, and what is left of it. -/
def cutText (frame : Frame) (text : List Char) : Nat × List Char :=
  let text := shownText text
  Text.dropColumns (min frame.cut (Text.width text)) text

/-- The text of a line; if the lines are cut, dots cover what comes first. -/
def textRow (frame : Frame) (text : List Char) : Row :=
  let (_, kept) := frame.cutText text
  if frame.cut = 0 then Row.write frame.textColumn .plain kept #[]
  else
    let dots := "...".toList
    let (covered, rest) := Text.dropColumns dots.length kept
    (Row.write frame.textColumn .frame dots #[]).write (frame.textColumn + covered) .plain rest

/-- A line of the source with its number. -/
def lineRow (frame : Frame) (line : Line) : Row :=
  let digits := Nat.toDigits 10 line.number
  let number := List.replicate (frame.numberWidth - digits.length) ' ' ++ digits
  ((frame.textRow line.text).write 0 .frame number).put frame.ruleColumn .frame '|'

end Frame

/-! ## Where labels go -/

namespace Mark

/-- Whether a mark and the next one to its left cannot share a row with what they have to say. -/
def crowds (mark : Mark) (level : Nat) (next : Mark) : Bool :=
  let overlapping := next.overlaps mark (next.label.utf8ByteSize + 2)
  (overlapping && mark.hasLabel && next.hasLabel) ||
    (mark.turn?.isSome && next.hasLabel) ||
    (mark.hasLabel && next.turn?.isSome) ||
    (mark.turn?.isSome && next.turn?.isSome) ||
    (overlapping && next.stop.column ≤ mark.stop.column && next.hasLabel && level == 0)

/-- Whether the label of a mark has to leave the first row because another mark overlaps it. -/
def isCovered (mark next : Mark) : Bool :=
  next.overlaps mark 0 &&
    !(next.start == mark.start && next.stop == mark.stop && !next.hasLabel)

/-- The levels at which marks have their say, from the rightmost mark to the left. -/
def levels : Nat → List Mark → List (Nat × Mark)
  | _, [] => []
  | level, mark :: left =>
    let level := if level = 0 && mark.hasLabel && left.any mark.isCovered then 1 else level
    (level, mark) :: levels (if left.any (mark.crowds level) then level + 1 else level) left

/-- The style of a mark and of its label. -/
def style (mark : Mark) : Style := if mark.primary then .error else .frame

/-- The character that underlines. -/
def pointer (mark : Mark) : Char := if mark.primary then '^' else '-'

/-- The number of columns of a mark. -/
def length (mark : Mark) : Nat := mark.stop.column - mark.start.column

/-- Whether a mark has its say before another one: it starts further to the right. -/
def precedes (a b : Mark) : Bool :=
  b.start.column < a.start.column ||
    (b.start.column == a.start.column && b.start.chars ≤ a.start.chars)

end Mark

/-! ## One line -/

/-- Draws the arms that lead from a mark to its bar. -/
def drawArm (frame : Frame) (canvas : Canvas) (placed : Nat × Mark) : Canvas :=
  let (level, mark) := placed
  match mark.turn? with
  | some track =>
    let (start, stop) := (frame.barColumn track + 1, frame.column mark.start)
    canvas.putAcross (level + 1) start stop mark.style '_'
  | none => canvas

/-- Draws the rod down to a label that hangs, and the part of a bar that belongs to the line of a
mark. -/
def drawRod (frame : Frame) (lastRow : Nat) (canvas : Canvas) (placed : Nat × Mark) : Canvas :=
  let (level, mark) := placed
  let canvas :=
    if 1 ≤ level && (mark.hasLabel || mark.turn?.isSome) then
      canvas.putDown 1 (level + 1) (frame.column mark.start) mark.style '|'
    else canvas
  match mark.shape with
  | .opening track =>
    (canvas.put (level + 1) (frame.barColumn track) mark.style ' ').putDown (level + 2)
      (lastRow - (level + 1)) (frame.barColumn track) mark.style '|'
  | .closing track => canvas.putDown 0 (level + 2) (frame.barColumn track) mark.style '|'
  | _ => canvas

/-- Draws the label of a mark. -/
def drawLabel (frame : Frame) (canvas : Canvas) (placed : Nat × Mark) : Canvas :=
  let (level, mark) := placed
  let text := mark.label.toList
  if level = 0 then
    let stop := if mark.stop.column = 0 then mark.stop.next else mark.stop
    canvas.write 1 (frame.column stop.next) mark.style text
  else canvas.write (level + 2) (frame.column mark.start) mark.style text

/-- Underlines the columns of a mark. -/
def drawPointer (frame : Frame) (canvas : Canvas) (placed : Nat × Mark) : Canvas :=
  let mark := placed.2
  let stop := if mark.start.column < mark.stop.column then mark.stop else mark.start.next
  canvas.putAcross 1 (frame.column mark.start) (frame.column stop) mark.style mark.pointer

/-- Draws everything below a line. Longer marks come first, so that shorter ones stay visible, and
related ones before the one of the error. -/
def drawMarks (frame : Frame) (marks : List Mark) (canvas : Canvas) : Canvas :=
  let placed := Mark.levels 0 (marks.mergeSort Mark.precedes)
  let deepest := (placed.map (·.1)).foldl max 0
  let allOpen := marks.all Mark.isOpening
  let placed := if allOpen then placed.map fun (level, mark) => (deepest - level, mark) else placed
  let extra := if deepest = 0 then 0 else deepest + 1
  let lastRow := (if allOpen then extra - 1 else extra) + 1
  let canvas := canvas.putDown 1 lastRow frame.ruleColumn .frame '|'
  let canvas := placed.foldl (drawArm frame) canvas
  let canvas := placed.foldl (drawRod frame lastRow) canvas
  let canvas := placed.foldl (drawLabel frame) canvas
  let visible := (placed.filter fun (_, mark) => !mark.isPassing).mergeSort fun (_, a) (_, b) =>
    b.length < a.length || (a.length == b.length && (!a.primary || b.primary))
  visible.foldl (drawPointer frame) canvas

/-- Whether a bar can start in front of its line: nothing but blanks comes before the mark. -/
def startsInFront (line : Line) (mark : Mark) : Bool :=
  mark.isPassing ||
    (mark.isOpening && ((shownText line.text).take mark.start.column).all isWhitespace)

/-- The bars that start or end at marks, with their styles. -/
def turns (marks : List Mark) : List (Nat × Style) :=
  marks.filterMap fun mark => mark.turn?.map fun track => (track, mark.style)

/-- Draws a marked line with everything below it. -/
def drawMarkedLine (frame : Frame) (marked : MarkedLine) : Canvas :=
  let canvas : Canvas := #[frame.lineRow marked.line]
  let frame := { frame with cut := (frame.cutText marked.line.text).1 }
  if marked.marks.all (startsInFront marked.line) then
    (turns marked.marks).foldl
      (fun canvas (track, style) => canvas.put 0 (frame.barColumn track) style '/') canvas
  else drawMarks frame marked.marks canvas

/-! ## All lines -/

/-- Draws bars through all rows of a canvas. -/
def drawBars (frame : Frame) (bars : List (Nat × Style)) (canvas : Canvas) : Canvas :=
  canvas.map fun row =>
    bars.foldl (fun row (track, style) => row.put (frame.barColumn track) style '|') row

/-- What stands for the lines between two marked ones: nothing, the line itself if it is only one,
or dots. -/
def drawGap (frame : Frame) (lines : List Line) (above below : Nat) : Canvas :=
  if above + 2 < below then #[Row.write 0 .frame "...".toList #[]]
  else if above + 2 = below then
    ((lines.find? fun line => line.number == above + 1).map frame.lineRow).toArray
  else #[]

/-- Draws marked lines below what is drawn already, through which the bars `open` go. -/
def drawMarkedLines (frame : Frame) (lines : List Line) :
    List MarkedLine → List (Nat × Style) → Canvas → Canvas
  | [], _, canvas => canvas
  | marked :: rest, openBars, canvas =>
    let turning := turns marked.marks
    let isTurning (bar : Nat × Style) := turning.any fun turn => turn.1 == bar.1
    let isOpen (bar : Nat × Style) := openBars.any fun other => other.1 == bar.1
    let through := openBars.filter fun bar => !isTurning bar
    let block := drawBars frame through (drawMarkedLine frame marked)
    let gap :=
      match rest with
      | [] => #[]
      | next :: _ =>
        drawBars frame (through ++ turns (marked.marks.filter Mark.isOpening))
          (drawGap frame lines marked.line.number next.line.number)
    drawMarkedLines frame lines rest (through ++ turning.filter fun bar => !isOpen bar)
      (canvas ++ block ++ gap)

end ResumeFilter.Report
