import ResumeFilter.Error

/-!
# What there is to report

A diagnostic is an error reduced to what a report draws: a message, the place that it is about, and
perhaps a second place. A place of no width is drawn as the character that stands there.
-/

namespace ResumeFilter

/-- An error as a report shows it. -/
structure Diagnostic where
  message : String
  span : Span
  related? : Option Related
  /-- The error in one line, for a reader who does not have the source. -/
  summary : String
deriving DecidableEq

/-- A diagnostic whose one line names the place. -/
def Diagnostic.located (message : String) (span : Span) (related? : Option Related) : Diagnostic :=
  ⟨message, span, related?, message ++ " at offset " ++ toString span.start⟩

/-- An error as a report shows it. -/
def Error.diagnostic (error : Error) : Diagnostic :=
  ⟨error.message, error.span, error.related?, error.display⟩

namespace Text

/-- The character that starts at a place of a text, if one does. -/
def charAt? : Nat → List Char → Option Char
  | _, [] => none
  | offset, c :: cs =>
    if offset = 0 then some c
    else if c.utf8Size ≤ offset then charAt? (offset - c.utf8Size) cs
    else none

end Text

/-- The span to be drawn for a span: one of no width grows to the character that starts there.

At the end of the source there is no character, and the span stays empty. -/
def Span.drawn (source : List Char) (span : Span) : Span :=
  if span.start = span.stop then
    match Text.charAt? span.start source with
    | some c => ⟨span.start, span.start + c.utf8Size⟩
    | none => span
  else span

end ResumeFilter
