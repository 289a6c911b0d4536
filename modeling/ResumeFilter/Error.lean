import ResumeFilter.Plan.Resolved
import ResumeFilter.Query.ParseError

/-!
# Errors on the way from text to SQL

A text fails to become SQL either because it is not a query or because one of its comparisons makes
no sense. Both kinds of error point at a place of the text.
-/

namespace ResumeFilter

/-- Why a text does not become SQL. -/
inductive Error
  | parse (error : ParseError)
  | resolve (error : ResolveError)
deriving DecidableEq

namespace Error

/-- What is wrong, without the place. -/
def message : Error → String
  | .parse error => error.message
  | .resolve error => error.message

/-- The place of an error. -/
def span : Error → Span
  | .parse error => error.span
  | .resolve error => error.span

/-- A place that helps to understand an error. -/
def related? : Error → Option Related
  | .parse error => error.related?
  | .resolve _ => none

/-- An error in one line: with the place if the text is not even a query. -/
def display : Error → String
  | .parse error => error.display
  | .resolve error => error.message

end Error

end ResumeFilter
