import ResumeFilter.Proofs.Lowering.Refinement
import ResumeFilter.Sql.Builder

/-!
# A lowering that fails does nothing

A comparison is at fault if no field has its name, or else if its operand does not suit its operator
(`Comparison.Fault`). A query is lowered unless one of its comparisons is at fault. The first one
from the left is reported, and until then the backend has not been called at all
(`lower_all_or_nothing`).

All comparisons are resolved before the first step is taken. A lowering may also resolve each of
them only when its turn has come, in a second pass over the steps (`Lowering.attempt`); after the
first pass that cannot fail, and it comes to the same (`foldlM_attempt`).
-/

namespace ResumeFilter

variable {σ κ π : Type}

/-! ## Faults -/

/-- What is wrong with a comparison: no field has its name, or else its operand does not suit its
operator. -/
inductive Comparison.Fault (c : Comparison) : ResolveError → Prop
  | unknownField (hname : ∀ field : Field, field.name ≠ c.field.name) :
    Fault c (.unknownField c.field.name c.field.span)
  | scalarWithIn {field : Field} {value : Value} (hname : field.name = c.field.name)
    (hop : c.op = .isIn) (hoperand : c.operand = .scalar value) :
    Fault c (.scalarWithIn field c.operand.span)
  | setWithScalarOperator {field : Field} {op : ScalarOp} {values : List Value} {span : Span}
    (hname : field.name = c.field.name) (hop : c.op = .scalar op)
    (hoperand : c.operand = .set values span) :
    Fault c (.setWithScalarOperator field op c.operand.span)

/-- Whether a comparison makes no sense: no field has its name, a single value stands behind IN, or
a set behind any other operator. -/
def Comparison.IsBad (c : Comparison) : Prop :=
  (∀ field : Field, field.name ≠ c.field.name) ∨
    (c.op = .isIn ∧ ∃ value, c.operand = .scalar value) ∨
    (∃ op, c.op = .scalar op) ∧ ∃ values span, c.operand = .set values span

/-- A name is that of one field at most. -/
theorem Field.ofName?_eq_some_iff {name : String} {field : Field} :
    Field.ofName? name = some field ↔ field.name = name := by
  have hfind : ∀ field : Field, Field.ofName? field.name = some field := by
    intro field
    cases field <;> decide
  constructor
  · intro h
    simpa using List.find?_some h
  · rintro rfl
    exact hfind field

/-- A name is unknown if no field has it. -/
theorem Field.ofName?_eq_none_iff {name : String} :
    Field.ofName? name = none ↔ ∀ field : Field, field.name ≠ name := by
  rw [Option.eq_none_iff_forall_ne_some]
  exact forall_congr' fun field => not_congr Field.ofName?_eq_some_iff

namespace Comparison

/-- A comparison is resolved to an error exactly if that is its fault. -/
theorem resolve_eq_error_iff {c : Comparison} {error : ResolveError} :
    c.resolve = .error error ↔ c.Fault error := by
  constructor
  · intro h
    rw [resolve] at h
    split at h
    next hnone =>
      obtain rfl := Except.error.inj h
      exact .unknownField (Field.ofName?_eq_none_iff.mp hnone)
    next field hfield =>
      have hname := Field.ofName?_eq_some_iff.mp hfield
      split at h
      next => cases h
      next => cases h
      next value hop hoperand =>
        obtain rfl := Except.error.inj h
        have hfault := Fault.scalarWithIn hname hop hoperand
        rwa [hoperand] at hfault
      next op values span hop hoperand =>
        obtain rfl := Except.error.inj h
        have hfault := Fault.setWithScalarOperator hname hop hoperand
        rwa [hoperand] at hfault
  · intro h
    cases h with
    | unknownField hname => rw [resolve, Field.ofName?_eq_none_iff.mpr hname]
    | scalarWithIn hname hop hoperand =>
      rw [resolve, Field.ofName?_eq_some_iff.mpr hname, hop, hoperand]
      rfl
    | setWithScalarOperator hname hop hoperand =>
      rw [resolve, Field.ofName?_eq_some_iff.mpr hname, hop, hoperand]
      rfl

/-- A comparison makes no sense exactly if it is at fault. -/
theorem isBad_iff {c : Comparison} : c.IsBad ↔ ∃ error, c.Fault error := by
  constructor
  · intro h
    cases hfield : Field.ofName? c.field.name with
    | none => exact ⟨_, .unknownField (Field.ofName?_eq_none_iff.mp hfield)⟩
    | some field =>
      have hname := Field.ofName?_eq_some_iff.mp hfield
      rcases h with hunknown | ⟨hop, value, hoperand⟩ | ⟨⟨op, hop⟩, values, span, hoperand⟩
      · exact absurd hname (hunknown field)
      · exact ⟨_, .scalarWithIn hname hop hoperand⟩
      · exact ⟨_, .setWithScalarOperator hname hop hoperand⟩
  · rintro ⟨error, hname | ⟨-, hop, hoperand⟩ | ⟨-, hop, hoperand⟩⟩
    · exact .inl hname
    · exact .inr (.inl ⟨hop, _, hoperand⟩)
    · exact .inr (.inr ⟨⟨_, hop⟩, _, _, hoperand⟩)

/-- A comparison that makes sense can be resolved, and no other one can. -/
theorem not_isBad_iff {c : Comparison} : ¬c.IsBad ↔ c.error? = none := by
  rw [isBad_iff, Option.eq_none_iff_forall_ne_some, not_exists]
  refine forall_congr' fun error => ?_
  rw [Ne, error?_eq_some_iff, resolve_eq_error_iff]

end Comparison

/-! ## Two passes -/

/-- Takes a step whose comparison is resolved only now, if that is possible. -/
def Lowering.attempt (backend : Backend σ κ π) (lowering : Lowering σ π) (s : Step Comparison) :
    Except ResolveError (Lowering σ π) :=
  s.resolve.map (lowering.step backend)

/-- If all steps could be resolved before, then a second pass that resolves each in its turn cannot
fail, and it takes the same steps. -/
theorem Lowering.foldlM_attempt (backend : Backend σ κ π) {steps : List (Step Comparison)}
    {resolved : List (Step Resolved)} (h : steps.mapM Step.resolve = .ok resolved)
    (lowering : Lowering σ π) :
    steps.foldlM (attempt backend) lowering = .ok (resolved.foldl (step backend) lowering) := by
  induction steps generalizing resolved lowering with
  | nil =>
    obtain rfl : [] = resolved := Except.ok.inj h
    rfl
  | cons s steps ih =>
    obtain ⟨first, others, hs, hrest, rfl⟩ := Query.mapM_cons_eq_ok_iff.mp h
    rw [List.foldlM_cons, attempt, hs, List.foldl_cons, ← ih hrest]
    rfl

/-! ## The whole lowering -/

namespace Query

/-- A lowering fails because of the first comparison at fault. -/
theorem plan_eq_error_iff_fault {q : Query} {error : ResolveError} :
    q.plan = .error error ↔ ∃ before c after, q.leaves = before ++ c :: after ∧
      (∀ d ∈ before, ¬d.IsBad) ∧ c.Fault error := by
  rw [plan_eq_error_iff, comparisons_eq_leaves, List.findSome?_eq_some_iff]
  simp only [Comparison.not_isBad_iff, Comparison.error?_eq_some_iff,
    Comparison.resolve_eq_error_iff]
  constructor
  · rintro ⟨before, c, after, hleaves, hfault, hbefore⟩
    exact ⟨before, c, after, hleaves, hbefore, hfault⟩
  · rintro ⟨before, c, after, hleaves, hbefore, hfault⟩
    exact ⟨before, c, after, hleaves, hfault, hbefore⟩

/-- A query has a plan exactly if none of its comparisons is at fault. -/
theorem exists_plan_iff_leaves {q : Query} :
    (∃ steps, q.plan = .ok steps) ↔ ∀ c ∈ q.leaves, ¬c.IsBad := by
  rw [exists_plan_iff, comparisons_eq_leaves]
  simp only [Comparison.not_isBad_iff, Comparison.error?_eq_none_iff]

/-- A query has no plan exactly if some comparison is at fault. -/
theorem exists_plan_error_iff {q : Query} :
    (∃ error, q.plan = .error error) ↔ ∃ c ∈ q.leaves, c.IsBad := by
  have hplan := q.exists_plan_iff_leaves
  rw [← not_iff_not]
  push Not
  rw [← hplan]
  cases q.plan <;> simp

/-- A lowering fails exactly if there is no plan. -/
theorem lower_eq_error_iff {backend : Backend σ κ π} {q : Query} {state : σ}
    {error : ResolveError} : (q.lower backend state).1 = .error error ↔ q.plan = .error error := by
  rw [lower]
  cases q.plan <;> simp

/-- A query without a plan does nothing to a backend. -/
theorem lower_of_plan_eq_error (backend : Backend σ κ π) {q : Query} {error : ResolveError}
    (h : q.plan = .error error) (state : σ) : q.lower backend state = (.error error, state) := by
  rw [lower, h]

end Query

/-- A lowering fails exactly if some comparison makes no sense. It reports the fault of the first
one from the left and leaves the backend's state as it was, whatever the backend is: one that keeps
a list of its calls finds none of this lowering in there. If every comparison makes sense, then a
second pass that resolves each of them once more cannot fail, and leads to what the lowering leads
to. In particular a query that fails changes nothing of a select that other queries have built. -/
theorem lower_all_or_nothing (backend : Backend σ κ π) (q : Query) (state : σ) :
    ((∃ error, (q.lower backend state).1 = .error error) ↔ ∃ c ∈ q.leaves, c.IsBad) ∧
      (∀ error, (q.lower backend state).1 = .error error →
        (∃ before c after, q.leaves = before ++ c :: after ∧ (∀ d ∈ before, ¬d.IsBad) ∧
          c.Fault error) ∧
        (q.lower backend state).2 = state) ∧
      ((∀ c ∈ q.leaves, ¬c.IsBad) → ∃ lowering predicate,
        q.steps.foldlM (Lowering.attempt backend) (Lowering.start state) = .ok lowering ∧
          lowering.stack = [predicate] ∧
          q.lower backend state = (.ok ⟨lowering.params.toList, lowering.joins⟩,
            backend.filter predicate lowering.state)) ∧
      ∀ (builder : Sql.Builder) error, (q.lower Sql.Builder.backend builder).1 = .error error →
        (q.lower Sql.Builder.backend builder).2.render = builder.render ∧
          (q.lower Sql.Builder.backend builder).2.joins = builder.joins ∧
          (q.lower Sql.Builder.backend builder).2.filter = builder.filter := by
  refine ⟨?_, ?_, ?_, ?_⟩
  · simp only [Query.lower_eq_error_iff]
    exact q.exists_plan_error_iff
  · intro error h
    have hplan := Query.lower_eq_error_iff.mp h
    refine ⟨Query.plan_eq_error_iff_fault.mp hplan, ?_⟩
    rw [Query.lower_of_plan_eq_error backend hplan]
  · intro h
    obtain ⟨steps, hplan⟩ := Query.exists_plan_iff_leaves.mpr h
    obtain ⟨predicate, -, -, -, -, hstack⟩ := Query.exists_lower_eq backend hplan state
    refine ⟨_, predicate, Lowering.foldlM_attempt backend hplan _, hstack, ?_⟩
    rw [Query.lower, hplan]
    simp only [Lowering.filtered, hstack]
  · intro builder error h
    rw [Query.lower_of_plan_eq_error _ (Query.lower_eq_error_iff.mp h)]
    exact ⟨rfl, rfl, rfl⟩

/-- An unknown field deep in a query, behind a comparison that needs a join and in front of another
fault, on a builder that holds a query already. -/
theorem lower_of_unknown_field_in_group :
    let builder := ((Sql.Builder.empty ⟨.dollar, false⟩).join .education).addFilter
      (.compare ⟨.education, "degree"⟩ .eq 0)
    let q := Query.logical .and
      (.comparison ⟨⟨"SKILLS", ⟨0, 6⟩⟩, .scalar .eq, .scalar ⟨.str "Lean", ⟨9, 15⟩⟩⟩)
      (.not (.logical .or
        (.comparison ⟨⟨"CITY", ⟨25, 29⟩⟩, .isIn, .scalar ⟨.int 1, ⟨33, 34⟩⟩⟩)
        (.comparison ⟨⟨"YOE", ⟨38, 41⟩⟩, .isIn, .scalar ⟨.int 2, ⟨45, 46⟩⟩⟩)))
    (q.lower Sql.Builder.backend builder).1 = .error (.unknownField "CITY" ⟨25, 29⟩) ∧
      (∃ c ∈ q.leaves, c.IsBad) ∧
      (q.lower Sql.Builder.backend builder).2.render = builder.render := by
  intro builder q
  have hfails : (q.lower Sql.Builder.backend builder).1 =
      .error (.unknownField "CITY" ⟨25, 29⟩) := by
    decide
  obtain ⟨hbad, -, -, hbuilder⟩ := lower_all_or_nothing Sql.Builder.backend q builder
  exact ⟨hfails, hbad.mp ⟨_, hfails⟩, (hbuilder builder _ hfails).1⟩

end ResumeFilter
