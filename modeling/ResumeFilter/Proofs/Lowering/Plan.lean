import ResumeFilter.Plan
import ResumeFilter.Proofs.Query.Traversal

/-!
# The plan of a query by its parts

A query has a plan if and only if its parts have plans, and its steps are those of its parts, the
left part first, with one more step behind them.
-/

namespace ResumeFilter

/-! ## Comparisons -/

/-- A comparison that can be resolved compares a field of the catalog with a single value, or asks
whether it is in a set. -/
theorem Comparison.resolve_eq_ok_iff {c : Comparison} {resolved : Resolved} :
    c.resolve = .ok resolved ↔
      ∃ field, Field.ofName? c.field.name = some field ∧
        ((∃ op value, c.op = .scalar op ∧ c.operand = .scalar value ∧
          resolved = .scalar field op value.literal) ∨
        ∃ values span, c.op = .isIn ∧ c.operand = .set values span ∧
          resolved = .isIn field (values.map Value.literal)) := by
  rw [resolve]
  cases hfield : Field.ofName? c.field.name with
  | none => simp
  | some field =>
    cases hop : c.op <;> cases hoperand : c.operand <;> simp [eq_comm]

/-- Why a comparison cannot be resolved, if it cannot. -/
def Comparison.error? (c : Comparison) : Option ResolveError :=
  match c.resolve with
  | .ok _ => none
  | .error error => some error

/-- A comparison has an error if that is what it is resolved to. -/
theorem Comparison.error?_eq_some_iff {c : Comparison} {error : ResolveError} :
    c.error? = some error ↔ c.resolve = .error error := by
  rw [error?]
  cases c.resolve <;> simp

/-- A comparison has no error if it can be resolved. -/
theorem Comparison.error?_eq_none_iff {c : Comparison} :
    c.error? = none ↔ ∃ resolved, c.resolve = .ok resolved := by
  rw [error?]
  cases c.resolve <;> simp

namespace Query

/-! ## Steps -/

/-- The steps of a query come in front of what follows them. -/
theorem stepsThen_eq (q : Query) (rest : List (Step Comparison)) :
    q.stepsThen rest = q.steps ++ rest := by
  rw [steps]
  induction q generalizing rest with
  | comparison c => rfl
  | not inner ih =>
    rw [stepsThen, stepsThen, ih (.negate :: rest), ih [.negate], List.append_assoc,
      List.singleton_append]
  | logical op left right ihleft ihright =>
    rw [stepsThen, stepsThen, ihleft (right.stepsThen (.combine op :: rest)),
      ihleft (right.stepsThen [.combine op]), ihright (.combine op :: rest),
      ihright [.combine op], List.append_assoc, List.append_assoc, List.singleton_append]

/-- Negating is the last step. -/
theorem steps_not (inner : Query) : (Query.not inner).steps = inner.steps ++ [.negate] :=
  inner.stepsThen_eq [.negate]

/-- Joining is the last step. -/
theorem steps_logical (op : LogicalOp) (left right : Query) :
    (Query.logical op left right).steps = left.steps ++ (right.steps ++ [.combine op]) := by
  have hright := right.stepsThen_eq [.combine op]
  rw [← hright]
  exact left.stepsThen_eq (right.stepsThen [.combine op])

/-! ## Plans -/

/-- Steps are resolved if the first one and the others are. -/
theorem mapM_cons_eq_ok_iff {s : Step Comparison} {rest : List (Step Comparison)}
    {steps : List (Step Resolved)} :
    (s :: rest).mapM Step.resolve = .ok steps ↔
      ∃ first others, s.resolve = .ok first ∧ rest.mapM Step.resolve = .ok others ∧
        steps = first :: others := by
  rw [List.mapM_cons]
  cases s.resolve with
  | error error => simp [bind, Except.bind]
  | ok first =>
    cases rest.mapM Step.resolve with
    | error error => simp [bind, Except.bind]
    | ok others => simp [bind, Except.bind, pure, Except.pure, eq_comm]

/-- Steps are resolved if their parts are. -/
theorem mapM_append_eq_ok_iff {a b : List (Step Comparison)} {steps : List (Step Resolved)} :
    (a ++ b).mapM Step.resolve = .ok steps ↔
      ∃ first second, a.mapM Step.resolve = .ok first ∧ b.mapM Step.resolve = .ok second ∧
        steps = first ++ second := by
  rw [List.mapM_append]
  cases ha : a.mapM Step.resolve with
  | error error => simp [bind, Except.bind]
  | ok first =>
    cases hb : b.mapM Step.resolve with
    | error error => simp [bind, Except.bind]
    | ok second => simp [bind, Except.bind, pure, Except.pure, eq_comm]

/-- Steps are resolved up to the first error among them. -/
theorem mapM_append_eq_error_iff {a b : List (Step Comparison)} {error : ResolveError} :
    (a ++ b).mapM Step.resolve = .error error ↔
      a.mapM Step.resolve = .error error ∨
        (∃ first, a.mapM Step.resolve = .ok first) ∧ b.mapM Step.resolve = .error error := by
  rw [List.mapM_append]
  cases ha : a.mapM Step.resolve with
  | error error => simp [bind, Except.bind]
  | ok first =>
    cases hb : b.mapM Step.resolve with
    | error error => simp [bind, Except.bind]
    | ok second => simp [bind, Except.bind, pure, Except.pure]

/-- The plan of a comparison is to make its predicate. -/
theorem plan_comparison_eq_ok_iff {c : Comparison} {steps : List (Step Resolved)} :
    (Query.comparison c).plan = .ok steps ↔
      ∃ resolved, c.resolve = .ok resolved ∧ steps = [.compare resolved] := by
  have hplan : (Query.comparison c).plan = [Step.compare c].mapM Step.resolve := rfl
  rw [hplan, List.mapM_cons, Step.resolve]
  cases c.resolve <;> simp [bind, Except.bind, pure, Except.pure, Except.map, eq_comm]

/-- The plan of a negation ends with the negation. -/
theorem plan_not_eq_ok_iff {inner : Query} {steps : List (Step Resolved)} :
    (Query.not inner).plan = .ok steps ↔
      ∃ first, inner.plan = .ok first ∧ steps = first ++ [.negate] := by
  have hnegate : [Step.negate].mapM Step.resolve = .ok [.negate] := rfl
  rw [plan, steps_not, mapM_append_eq_ok_iff, hnegate]
  simp [plan]

/-- The plan of a junction is that of its left side, that of its right side and the junction. -/
theorem plan_logical_eq_ok_iff {op : LogicalOp} {left right : Query}
    {steps : List (Step Resolved)} :
    (Query.logical op left right).plan = .ok steps ↔
      ∃ first second, left.plan = .ok first ∧ right.plan = .ok second ∧
        steps = first ++ (second ++ [.combine op]) := by
  have hcombine : [Step.combine op].mapM Step.resolve = .ok [.combine op] := rfl
  rw [plan, steps_logical, mapM_append_eq_ok_iff]
  simp only [mapM_append_eq_ok_iff, hcombine]
  constructor
  · rintro ⟨first, _, hleft, ⟨second, _, hright, hlast, rfl⟩, rfl⟩
    obtain rfl := Except.ok.inj hlast
    exact ⟨first, second, hleft, hright, rfl⟩
  · rintro ⟨first, second, hleft, hright, rfl⟩
    exact ⟨first, _, hleft, ⟨second, _, hright, rfl, rfl⟩, rfl⟩

/-- A comparison has no plan if it cannot be resolved. -/
theorem plan_comparison_eq_error_iff {c : Comparison} {error : ResolveError} :
    (Query.comparison c).plan = .error error ↔ c.resolve = .error error := by
  have hplan : (Query.comparison c).plan = [Step.compare c].mapM Step.resolve := rfl
  rw [hplan, List.mapM_cons, Step.resolve]
  cases c.resolve <;> simp [bind, Except.bind, pure, Except.pure, Except.map]

/-- A negation has no plan if its operand has none. -/
theorem plan_not_eq_error_iff {inner : Query} {error : ResolveError} :
    (Query.not inner).plan = .error error ↔ inner.plan = .error error := by
  have hnegate : [Step.negate].mapM Step.resolve = .ok [.negate] := rfl
  rw [plan, steps_not, mapM_append_eq_error_iff, hnegate]
  simp [plan]

/-- A junction has no plan if its left side has none, or else if its right side has none. -/
theorem plan_logical_eq_error_iff {op : LogicalOp} {left right : Query} {error : ResolveError} :
    (Query.logical op left right).plan = .error error ↔
      left.plan = .error error ∨
        (∃ first, left.plan = .ok first) ∧ right.plan = .error error := by
  have hcombine : [Step.combine op].mapM Step.resolve = .ok [.combine op] := rfl
  rw [plan, steps_logical, mapM_append_eq_error_iff, mapM_append_eq_error_iff, hcombine]
  simp [plan]

/-- A query has a plan if and only if all its comparisons can be resolved. -/
theorem exists_plan_iff {q : Query} :
    (∃ steps, q.plan = .ok steps) ↔ ∀ c ∈ q.comparisons, ∃ resolved, c.resolve = .ok resolved := by
  induction q with
  | comparison c =>
    show _ ↔ ∀ d ∈ [c], ∃ resolved, d.resolve = .ok resolved
    simp only [plan_comparison_eq_ok_iff, List.forall_mem_singleton]
    constructor
    · rintro ⟨steps, resolved, hresolved, -⟩
      exact ⟨resolved, hresolved⟩
    · rintro ⟨resolved, hresolved⟩
      exact ⟨_, resolved, hresolved, rfl⟩
  | not inner ih =>
    simp only [plan_not_eq_ok_iff, comparisons_not, ← ih]
    constructor
    · rintro ⟨steps, first, hfirst, -⟩
      exact ⟨first, hfirst⟩
    · rintro ⟨first, hfirst⟩
      exact ⟨_, first, hfirst, rfl⟩
  | logical op left right ihleft ihright =>
    simp only [plan_logical_eq_ok_iff, comparisons_logical, List.forall_mem_append, ← ihleft,
      ← ihright]
    constructor
    · rintro ⟨steps, first, second, hfirst, hsecond, -⟩
      exact ⟨⟨first, hfirst⟩, second, hsecond⟩
    · rintro ⟨⟨first, hfirst⟩, second, hsecond⟩
      exact ⟨_, first, second, hfirst, hsecond, rfl⟩

/-- A query has no plan because of the first comparison that cannot be resolved. -/
theorem plan_eq_error_iff {q : Query} {error : ResolveError} :
    q.plan = .error error ↔ q.comparisons.findSome? Comparison.error? = some error := by
  induction q with
  | comparison c =>
    show _ ↔ [c].findSome? Comparison.error? = some error
    rw [plan_comparison_eq_error_iff, List.findSome?_singleton, Comparison.error?_eq_some_iff]
  | not inner ih => rw [plan_not_eq_error_iff, comparisons_not, ih]
  | logical op left right ihleft ihright =>
    have hplan : (∃ first, left.plan = .ok first) ↔
        left.comparisons.findSome? Comparison.error? = none := by
      rw [exists_plan_iff, List.findSome?_eq_none_iff]
      simp only [Comparison.error?_eq_none_iff]
    rw [plan_logical_eq_error_iff, comparisons_logical, List.findSome?_append,
      Option.or_eq_some_iff, ihleft, ihright, hplan]

end Query

end ResumeFilter
