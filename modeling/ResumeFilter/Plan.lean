import ResumeFilter.Plan.Resolved

/-!
# The plan of a query

A query is planned by writing it down as the steps that build it from below, the left side first,
and by resolving every comparison among them. A query with a comparison that makes no sense has no
plan, and nothing is built of it.
-/

namespace ResumeFilter

/-- One step of building a predicate from below; comparisons are given as `α`. -/
inductive Step (α : Type)
  /-- Makes a predicate of a comparison. -/
  | compare (c : α)
  /-- Negates the last predicate. -/
  | negate
  /-- Joins the last two predicates. -/
  | combine (op : LogicalOp)
deriving DecidableEq

/-- The step with its comparison resolved. -/
def Step.resolve : Step Comparison → Except ResolveError (Step Resolved)
  | .compare c => c.resolve.map .compare
  | .negate => .ok .negate
  | .combine op => .ok (.combine op)

namespace Query

/-- The steps that build a query, and `rest` after them. -/
def stepsThen : Query → List (Step Comparison) → List (Step Comparison)
  | .comparison c, rest => .compare c :: rest
  | .not inner, rest => inner.stepsThen (.negate :: rest)
  | .logical op left right, rest => left.stepsThen (right.stepsThen (.combine op :: rest))

/-- The steps that build a query, its comparisons in source order. -/
def steps (q : Query) : List (Step Comparison) := q.stepsThen []

/-- The steps that build a query with all comparisons resolved, or the first error among them. -/
def plan (q : Query) : Except ResolveError (List (Step Resolved)) := q.steps.mapM Step.resolve

end Query

end ResumeFilter
