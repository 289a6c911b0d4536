import ResumeFilter.Sql.Statement

/-!
# Working on one builder

A session holds a builder and a stack of conditions that are not yet part of its filter. Its actions
are the operations of the builder, which take their operands from the stack, and whole queries. An
action that needs more conditions than there are changes nothing.
-/

namespace ResumeFilter.Sql

/-- An action on a builder. -/
inductive Action
  | join (join : Join)
  /-- Puts a comparison of a field with a parameter onto the stack. -/
  | compare (op : ScalarOp) (field : Field) (param : Nat)
  /-- Puts a membership test onto the stack. -/
  | isIn (field : Field) (params : List Nat)
  /-- Joins the upper two conditions. -/
  | combine (op : LogicalOp)
  /-- Negates the top condition a number of times. -/
  | negate (times : Nat)
  /-- Puts the top condition onto the stack again. -/
  | duplicate
  /-- Moves the top condition into the filter. -/
  | filter
  /-- Lowers the query of a text onto the builder. -/
  | query (source : String)
deriving DecidableEq

/-- A builder and the conditions on the stack, the top one first. -/
structure Session where
  builder : Builder
  stack : List Condition
deriving DecidableEq

namespace Session

/-- What is to be said of an action besides the session that it leads to. -/
inductive Answer
  | done
  /-- The stack held too few conditions. -/
  | underflow
  /-- What became of a query. -/
  | queried (result : Except Error Lowered)

/-- A session on a builder that selects every row. -/
def empty (config : Config) : Session := ⟨Builder.empty config, []⟩

/-- A condition negated a number of times. -/
def negated : Nat → Condition → Condition
  | 0, condition => condition
  | times + 1, condition => negated times (.not condition)

/-- Takes one action. -/
def act (session : Session) : Action → Answer × Session
  | .join join => (.done, { session with builder := session.builder.join join })
  | .compare op field param =>
    (.done, { session with stack := .compare field.column op param :: session.stack })
  | .isIn field params =>
    (.done, { session with stack := .isIn field.column params :: session.stack })
  | .combine op =>
    match session.stack with
    | right :: left :: rest => (.done, { session with stack := .combine op left right :: rest })
    | _ => (.underflow, session)
  | .negate times =>
    match session.stack with
    | top :: rest => (.done, { session with stack := negated times top :: rest })
    | [] => (.underflow, session)
  | .duplicate =>
    match session.stack with
    | top :: rest => (.done, { session with stack := top :: top :: rest })
    | [] => (.underflow, session)
  | .filter =>
    match session.stack with
    | top :: rest => (.done, ⟨session.builder.addFilter top, rest⟩)
    | [] => (.underflow, session)
  | .query source =>
    let (result, builder) := session.builder.addQuery source
    (.queried result, { session with builder })

/-- Takes actions in order and lists the answer to each and where it leads. -/
def run (session : Session) : List Action → List (Answer × Session)
  | [] => []
  | action :: rest =>
    let next := session.act action
    next :: next.2.run rest

end Session

end ResumeFilter.Sql
