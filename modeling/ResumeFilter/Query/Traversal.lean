import ResumeFilter.Query

/-!
# Walking through a query

A flat chain of conditions is a tree that leans to the left and is as deep as the chain is long.
The walks below therefore take the part of the answer that comes after a subtree as an argument:
going down the left side is then a loop.
-/

namespace ResumeFilter.Query

/-! ## Comparisons -/

/-- The comparisons of a query in source order, and `rest` after them. -/
def comparisonsThen : Query → List Comparison → List Comparison
  | .comparison c, rest => c :: rest
  | .not inner, rest => inner.comparisonsThen rest
  | .logical _ left right, rest => left.comparisonsThen (right.comparisonsThen rest)

/-- The comparisons of a query in source order. -/
def comparisons (q : Query) : List Comparison := q.comparisonsThen []

/-- The field names of a query in source order, repeated names included. -/
def fields (q : Query) : List String := q.comparisons.map fun c => c.field.name

/-! ## Nodes -/

/-- The conditions of a query from the outside in and from left to right, and `rest` after them. -/
def nodesThen : Query → List Query → List Query
  | .comparison c, rest => .comparison c :: rest
  | .not inner, rest => .not inner :: inner.nodesThen rest
  | .logical op left right, rest =>
    .logical op left right :: left.nodesThen (right.nodesThen rest)

/-- The conditions of a query, itself first, each before its parts and the left part first. -/
def nodes (q : Query) : List Query := q.nodesThen []

/-! ## Depth -/

/-- The larger of `best` and the depth that a query reaches when it starts at `level`. -/
def depthFrom : Query → Nat → Nat → Nat
  | .comparison _, level, best => max best level
  | .not inner, level, best => inner.depthFrom (level + 1) best
  | .logical _ left right, level, best =>
    left.depthFrom (level + 1) (right.depthFrom (level + 1) best)

/-- How deep a query is nested; a single comparison has depth one. -/
def depth (q : Query) : Nat := q.depthFrom 1 0

/-! ## Chains -/

/-- Unrolls the left side of a query in front of the part of the chain that is already unrolled. -/
def chainThen : Query → List (LogicalOp × Query) → Query × List (LogicalOp × Query)
  | .logical op left right, rest => left.chainThen ((op, right) :: rest)
  | first, rest => (first, rest)

/-- A query as the first condition of a chain and the operators and conditions that follow it. -/
def chain (q : Query) : Query × List (LogicalOp × Query) := q.chainThen []

end ResumeFilter.Query
