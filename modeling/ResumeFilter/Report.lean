import ResumeFilter.Report.Drawing

/-!
# Reports

A report shows a diagnostic below the source that it is about: a title, the place if the source has
a path, and the lines that matter with their marks. Without the source there is only one line.
-/

namespace ResumeFilter

namespace Report

/-- The title of a report; further lines of the message are indented below its first one. -/
def titleRows (message : String) : Canvas :=
  let rows := (message.splitOn "\n").mapIdx fun index line =>
    let row : Row :=
      if index = 0 then (Row.append .error "error".toList #[]).append .title ": ".toList
      else Row.append .plain (List.replicate 7 ' ') #[]
    row.append .title (shownText line.toList)
  rows.toArray

/-- Where the error is: the first mark of the error, or else of anything. -/
def pathRow (frame : Frame) (path : String) (marked : List MarkedLine) : Row :=
  let line? := (marked.find? fun line => line.marks.any (·.primary)).or marked.head?
  let position :=
    match line? with
    | none => ""
    | some line =>
      let primary := line.marks.filter (·.primary)
      let marks := if primary.isEmpty then line.marks else primary
      let candidates := marks.map fun mark => mark.start.chars
      ":" ++ toString line.line.number ++ ":" ++
        toString (candidates.tail.foldl min (candidates.headD 0) + 1)
  let row := Row.write frame.numberWidth .frame "--> ".toList #[]
  row.append .plain (path ++ position).toList

attribute [local instance] Text.zeroLength

/-- The width of the whitespace at the start of a line. -/
def indentation (cs : List Char) : Nat :=
  ((cs.takeWhile isWhitespace).map fun c => if c = '\t' then 4 else 1).sum

/-- How much of the margin of marked lines is left out: of a deep one all but a part.

The margin ends at the least indentation of lines that hold more than whitespace, and at the first
mark. -/
def indentationCut (marked : List MarkedLine) : Nat :=
  let texts := (marked.map fun line => line.line.text).filter fun cs => !cs.all isWhitespace
  let marks := marked.flatMap MarkedLine.marks
  let margin :=
    if texts.isEmpty then 0
    else
      let stops := texts.map indentation ++ marks.map fun mark => mark.start.column
      stops.tail.foldl min (stops.headD 0)
  let spare := margin - 6
  if 20 < spare then spare - 16 else 0

/-- The number of the last line that spans reach into. -/
def lastNumber (source : List Char) (spans : List Span) : Nat :=
  let stop := (spans.map Span.stop).foldl max 0
  (lines (Text.takeBytes stop source)).length

/-- The report of a message on a source, with a path for the source if it has one. -/
def canvas (diagnostic : Diagnostic) (source : List Char) (path? : Option String) : Canvas :=
  let span := diagnostic.span.drawn source
  let related? := diagnostic.related?.map fun related =>
    { related with span := related.span.drawn source }
  let lines := lines source
  let annotations :=
    Annotation.ofSpan lines span true diagnostic.message ::
      (related?.map fun related =>
        Annotation.ofSpan lines related.span false related.message).toList
  let (marked, tracks) := markedLines lines annotations
  let last := lastNumber source (span :: (related?.map Related.span).toList)
  let frame : Frame := ⟨(Nat.toDigits 10 last).length, tracks, indentationCut marked⟩
  let header := titleRows diagnostic.message ++
    (path?.map fun path => pathRow frame path marked).toArray
  drawMarkedLines frame lines marked [] (header.push (Row.put frame.ruleColumn .frame '|' #[]))

end Report

/-- The text of a report, in colours if `colored` is set; without a source, of one line. -/
def Diagnostic.render (diagnostic : Diagnostic) (source? path? : Option String) (colored : Bool) :
    String :=
  match source? with
  | none => diagnostic.summary
  | some source => (Report.canvas diagnostic source.toList path?).text colored

end ResumeFilter
