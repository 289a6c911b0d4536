import ResumeFilter.Sql.Condition
import ResumeFilter.Sql.Piece

/-!
# Select statements and their text

A select draws from the base relation, brings in tables by left joins and keeps the rows that meet
its condition. In the text of a condition every compound right side is in parentheses, a compound
left side only if its operator is the other one, and the operand of NOT always; so the text means
the same whether AND is stronger than OR or not.
-/

namespace ResumeFilter.Sql

/-! ## Conditions -/

/-- The pieces of a column with its table in front. -/
def columnPieces (column : Column) : List Piece :=
  [.name column.table.name, .word ".", .name column.name]

/-- The SQL spelling of a comparison. -/
def scalarOpText : ScalarOp → String
  | .eq => "="
  | .notEq => "<>"
  | .gt => ">"
  | .lt => "<"
  | .gtEq => ">="
  | .ltEq => "<="

/-- The SQL spelling of a junction. -/
def logicalOpText : LogicalOp → String
  | .and => "AND"
  | .or => "OR"

/-- The pieces of a condition without parts. -/
def comparePieces (column : Column) (op : ScalarOp) (param : Nat) : List Piece :=
  columnPieces column ++ [.word (" " ++ scalarOpText op ++ " "), .param param]

/-- The pieces of a membership test; no row is among no values. -/
def isInPieces (column : Column) (params : List Nat) : List Piece :=
  if params.isEmpty then [.word "1 = 0"]
  else columnPieces column ++ .word " IN (" ::
    ((params.map Piece.param).intersperse (.word ", ") ++ [.word ")"])

/-- The pieces of a condition, and `rest` after them. -/
def Condition.piecesThen : Condition → List Piece → List Piece
  | .compare column op param, rest => comparePieces column op param ++ rest
  | .isIn column params, rest => isInPieces column params ++ rest
  | .not inner, rest => .word "NOT (" :: inner.piecesThen (.word ")" :: rest)
  | .combine op left right, rest =>
    let after := .word (" " ++ logicalOpText op ++ " ") ::
      if right.junction?.isSome then .word "(" :: right.piecesThen (.word ")" :: rest)
      else right.piecesThen rest
    if left.junction?.any (· ≠ op) then .word "(" :: left.piecesThen (.word ")" :: after)
    else left.piecesThen after

/-- The pieces of a condition. -/
def Condition.pieces (condition : Condition) : List Piece := condition.piecesThen []

/-- The text of a condition. -/
def Condition.text (config : Config) (condition : Condition) : String :=
  spell config condition.pieces

/-! ## Selects -/

/-- A select from the base relation. -/
structure Select where
  joins : List JoinStep
  filter : Option Condition
deriving DecidableEq

/-- The pieces of a join. -/
def joinPieces (step : JoinStep) : List Piece :=
  [.word " LEFT JOIN ", .name step.table.name, .word " ON "] ++ columnPieces step.left ++
    .word "=" :: columnPieces step.right

namespace Select

/-- The pieces of a select. -/
def pieces (select : Select) : List Piece :=
  [.word "SELECT ", .name Table.base.name, .word ".* FROM ", .name Table.base.name] ++
    select.joins.flatMap joinPieces ++
    match select.filter with
    | none => []
    | some condition => .word " WHERE " :: condition.pieces

/-- The text of a select. -/
def text (config : Config) (select : Select) : String := spell config select.pieces

end Select

end ResumeFilter.Sql
