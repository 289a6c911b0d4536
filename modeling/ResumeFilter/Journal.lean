import ResumeFilter.Sql.Statement
import ResumeFilter.Text.Escaped

/-!
# The journal of a filter

While a filter text becomes SQL, a journal can be kept of what happened: how many tokens there were,
which joins were declared and reached the select, what was bound, and the text with its SQL. A
failure ends the journal without an entry of its own.
-/

namespace ResumeFilter

/-- An entry of the journal. -/
inductive JournalEntry
  | scanned (tokens : Nat)
  | declared (join : Join)
  | joined (join : Join)
  | lowered (joins params : Nat)
  | finished (source sql : String)
deriving DecidableEq

/-- The line of an entry, its level in front. -/
def JournalEntry.text : JournalEntry → String
  | .scanned tokens => "TRACE scanned " ++ toString tokens ++ " tokens"
  | .declared join => "DEBUG declaring join `" ++ join.name ++ "`"
  | .joined join => "DEBUG sql: LEFT JOIN for `" ++ join.name ++ "`"
  | .lowered joins params =>
    "DEBUG translated query: " ++ toString joins ++ " join(s), " ++ toString params ++
      " parameter(s)"
  | .finished source sql => "DEBUG " ++ Text.quotedString source ++ " -> " ++ sql

namespace Journal

/-- The entries for what follows a scan, on a builder that had no query before. -/
def afterScan (source : String) (config : Sql.Config) : List JournalEntry :=
  match (Sql.Builder.empty config).addQuery source with
  | (.error _, _) => []
  | (.ok lowered, builder) =>
    lowered.joins.flatMap (fun join => [.declared join, .joined join]) ++
      [.lowered lowered.joins.length lowered.params.length,
       .finished source builder.render]

/-- The journal of turning a text into SQL. -/
def ofSource (source : String) (config : Sql.Config) : List JournalEntry :=
  match Token.scan source.toList with
  | .error _ => []
  | .ok tokens => .scanned tokens.length :: afterScan source config

end Journal

end ResumeFilter
