import ResumeFilter.Catalog
import ResumeFilter.Query

/-!
# SQL conditions

The condition of a select is a tree over columns and parameters. Parameters are counted from zero in
the order in which their values are to be supplied.
-/

namespace ResumeFilter.Sql

/-- A condition on the rows of a select. -/
inductive Condition
  | compare (column : Column) (op : ScalarOp) (param : Nat)
  /-- Holds of no row if there are no parameters. -/
  | isIn (column : Column) (params : List Nat)
  | not (inner : Condition)
  | combine (op : LogicalOp) (left right : Condition)
deriving DecidableEq

/-- The operator that joins the two sides of a condition, if it has two. -/
def Condition.junction? : Condition → Option LogicalOp
  | .combine op _ _ => some op
  | _ => none

end ResumeFilter.Sql
