import Mathlib.Data.List.Induction
import Mathlib.Data.List.Nodup
import ResumeFilter.Plan.Resolved
import ResumeFilter.Proofs.Query.Traversal

/-!
# The joins that a query needs

Every comparison needs the join of its field, if the field has one. Declaring what a query needs, in
source order and leaving out what has been declared before, gives each of its joins once, in the
order of the first use.
-/

namespace ResumeFilter

/-- The join that a comparison needs, if its field has one. -/
def Comparison.join? (c : Comparison) : Option Join :=
  (Field.ofName? c.field.name).bind Field.join?

/-- The joins that the comparisons of a query need, in source order and as often as they do. -/
def Query.joins (q : Query) : List Join := q.comparisons.filterMap Comparison.join?

/-- A comparison of a field needs the join of the field. -/
theorem Query.joins_comparison {c : Comparison} {field : Field}
    (h : Field.ofName? c.field.name = some field) :
    (Query.comparison c).joins = field.join?.toList := by
  have hjoin : c.join? = field.join? := by rw [Comparison.join?, h, Option.bind_some]
  show [c].filterMap Comparison.join? = field.join?.toList
  rw [List.filterMap_cons, hjoin]
  cases field.join? <;> rfl

/-- A junction needs the joins of its sides. -/
theorem Query.joins_logical (op : LogicalOp) (left right : Query) :
    (Query.logical op left right).joins = left.joins ++ right.joins := by
  rw [joins, comparisons_logical, List.filterMap_append]
  rfl

/-- A join that is needed once more is new only if it has not been needed before. -/
theorem eraseDups_concat (joins : List Join) (join : Join) :
    (joins ++ [join]).eraseDups =
      if join ∈ joins.eraseDups then joins.eraseDups else joins.eraseDups ++ [join] := by
  have hsingle : [join].eraseDups = [join] := rfl
  rw [List.eraseDups_append]
  by_cases hmem : join ∈ joins
  · rw [if_pos (List.mem_eraseDups.mpr hmem)]
    simp [List.removeAll, hmem]
  · rw [if_neg (mt List.mem_eraseDups.mp hmem)]
    simp [List.removeAll, hmem, hsingle]

end ResumeFilter
