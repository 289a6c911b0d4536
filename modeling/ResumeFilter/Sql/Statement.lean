import ResumeFilter.Error
import ResumeFilter.Lowering
import ResumeFilter.Query.Parse
import ResumeFilter.Sql.Builder

/-!
# From filter text to SQL

The whole way in one call: the text is read, lowered onto a builder and written as a select, and
with it come the values of its parameters.
-/

namespace ResumeFilter.Sql

/-- Reads a text and lowers it onto a builder, which stays as it is if either fails. -/
def Builder.addQuery (source : String) (builder : Builder) : Except Error Lowered × Builder :=
  match Query.parse source with
  | .error error => (.error (.parse error), builder)
  | .ok query =>
    match query.lower Builder.backend builder with
    | (.error error, builder) => (.error (.resolve error), builder)
    | (.ok lowered, builder) => (.ok lowered, builder)

/-- A select and the values of its parameters, in order. -/
structure Statement where
  sql : String
  params : List Literal
deriving DecidableEq

/-- The statement that a filter text stands for. -/
def Statement.ofSource (config : Config) (source : String) : Except Error Statement :=
  match (Builder.empty config).addQuery source with
  | (.error error, _) => .error error
  | (.ok lowered, builder) => .ok ⟨builder.render, lowered.params⟩

end ResumeFilter.Sql
