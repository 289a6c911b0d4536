import ResumeFilter.Query.Traversal

/-!
# The comparisons of a query by its parts

A walk through a query takes what comes after a part along. What it gives for the whole is what it
gives for the parts, the left one first.
-/

namespace ResumeFilter.Query

/-- The comparisons of a query come in front of what follows them. -/
theorem comparisonsThen_eq (q : Query) (rest : List Comparison) :
    q.comparisonsThen rest = q.comparisons ++ rest := by
  rw [comparisons]
  induction q generalizing rest with
  | comparison c => rfl
  | not inner ih => exact ih rest
  | logical op left right ihleft ihright =>
    rw [comparisonsThen, comparisonsThen, ihleft (right.comparisonsThen rest),
      ihleft (right.comparisonsThen []), ihright rest, List.append_assoc]

/-- A negation has the comparisons of its operand. -/
theorem comparisons_not (inner : Query) : (Query.not inner).comparisons = inner.comparisons := rfl

/-- A junction has the comparisons of its sides. -/
theorem comparisons_logical (op : LogicalOp) (left right : Query) :
    (Query.logical op left right).comparisons = left.comparisons ++ right.comparisons :=
  left.comparisonsThen_eq right.comparisons

/-- The comparisons of a query from left to right, as the structure of the query has them. -/
def leaves : Query → List Comparison
  | .comparison c => [c]
  | .not inner => inner.leaves
  | .logical _ left right => left.leaves ++ right.leaves

/-- The walk meets the comparisons from left to right. -/
theorem comparisons_eq_leaves (q : Query) : q.comparisons = q.leaves := by
  induction q with
  | comparison c => rfl
  | not inner ih => rw [comparisons_not, leaves, ih]
  | logical op left right ihleft ihright => rw [comparisons_logical, leaves, ihleft, ihright]

end ResumeFilter.Query
