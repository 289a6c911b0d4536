import ResumeFilter.Lowering.Pending
import ResumeFilter.Proofs.Lowering.Refinement
import ResumeFilter.Proofs.Query.Pending

/-!
# Lowering by tasks is lowering by steps

The steps that pending tasks stand for are those of the first task, then those of the others
(`Task.stepsThen`). Bringing up the tasks for the parts of a condition leaves them as they are, and
performing any other task takes the first of them: that is the invariant of the loop
(`perform_eq_foldl`). For the steps of a query the predicates are always there, so the loop comes to
what the steps come to, and its second pass never fails (`Query.lowerPending_eq`).
-/

namespace ResumeFilter

variable {σ κ π : Type}

/-! ## The first pass -/

/-- Comparisons are resolved up to the first error among them. -/
theorem mapM_resolve_eq_error_iff {comparisons : List Comparison} {error : ResolveError} :
    comparisons.mapM Comparison.resolve = .error error ↔
      comparisons.findSome? Comparison.error? = some error := by
  induction comparisons with
  | nil => exact iff_of_false nofun nofun
  | cons c comparisons ih =>
    rw [List.mapM_cons, List.findSome?_cons, Comparison.error?]
    cases c.resolve with
    | error first => simp [bind, Except.bind]
    | ok resolved =>
      rw [← ih]
      cases comparisons.mapM Comparison.resolve <;> simp [bind, Except.bind, pure, Except.pure]

/-- The comparisons of a query are resolved to an error if the query has no plan because of it. -/
theorem Query.mapM_resolve_comparisons_eq_error_iff {q : Query} {error : ResolveError} :
    q.comparisons.mapM Comparison.resolve = .error error ↔ q.plan = .error error := by
  rw [mapM_resolve_eq_error_iff, plan_eq_error_iff]

/-! ## The second pass -/

/-- The steps that a task stands for, and `rest` after them. -/
def Task.stepsThen : Task → List (Step Comparison) → List (Step Comparison)
  | .lower q, rest => q.stepsThen rest
  | .negate, rest => .negate :: rest
  | .combine op, rest => .combine op :: rest

/-- Steps are resolved to what the first of them is resolved to, and others. -/
theorem exists_of_mapM_resolve_cons {s : Step Comparison} {rest : List (Step Comparison)}
    {first : Step Resolved} {steps : List (Step Resolved)}
    (h : (s :: rest).mapM Step.resolve = .ok steps) (hfirst : s.resolve = .ok first) :
    ∃ others, rest.mapM Step.resolve = .ok others ∧ steps = first :: others := by
  obtain ⟨_, others, hfirst', hothers, rfl⟩ := Query.mapM_cons_eq_ok_iff.mp h
  obtain rfl := Except.ok.inj (hfirst.symm.trans hfirst')
  exact ⟨others, hothers, rfl⟩

namespace Lowering

/-- If the steps that pending tasks stand for are resolved to steps that find their predicates, then
performing the tasks is taking these steps. -/
theorem perform_eq_foldl (backend : Backend σ κ π) (tasks : List Task) (lowering : Lowering σ π)
    {steps : List (Step Resolved)}
    (hsteps : (tasks.foldr Task.stepsThen []).mapM Step.resolve = .ok steps)
    (hruns : lowering.Runs backend steps) :
    perform backend tasks lowering = (.ok (), steps.foldl (step backend) lowering) := by
  fun_induction perform backend tasks lowering generalizing steps with
  | case1 lowering =>
    obtain rfl : [] = steps := Except.ok.inj hsteps
    rfl
  | case2 op left right tasks lowering ih => exact ih hsteps hruns
  | case3 inner tasks lowering ih => exact ih hsteps hruns
  | case4 c tasks lowering resolved hresolved ih =>
    have hfirst : (Step.compare c).resolve = .ok (.compare resolved) :=
      congrArg (Except.map Step.compare) hresolved
    obtain ⟨others, hothers, rfl⟩ := exists_of_mapM_resolve_cons hsteps hfirst
    exact ih hothers hruns.2
  | case5 c tasks lowering error herror =>
    obtain ⟨first, others, hfirst, -, -⟩ := Query.mapM_cons_eq_ok_iff.mp hsteps
    rw [Step.resolve, herror] at hfirst
    cases hfirst
  | case6 op tasks lowering right left rest hstack predicate state hmade ih =>
    obtain ⟨others, hothers, rfl⟩ := exists_of_mapM_resolve_cons hsteps rfl
    have hstep := step_combine backend op hstack
    rw [hmade] at hstep
    rw [List.foldl_cons, hstep]
    exact ih hothers (hstep ▸ hruns.2)
  | case7 op tasks lowering hstack =>
    obtain ⟨others, hothers, rfl⟩ := exists_of_mapM_resolve_cons hsteps rfl
    have hlength : 2 ≤ lowering.stack.length := hruns.1
    rcases hfound : lowering.stack with _ | ⟨right, _ | ⟨left, rest⟩⟩
    · rw [hfound] at hlength
      exact absurd hlength (by simp)
    · rw [hfound] at hlength
      exact absurd hlength (by simp)
    · exact (hstack right left rest hfound).elim
  | case8 tasks lowering inner rest hstack predicate state hmade ih =>
    obtain ⟨others, hothers, rfl⟩ := exists_of_mapM_resolve_cons hsteps rfl
    have hstep := step_negate backend hstack
    rw [hmade] at hstep
    rw [List.foldl_cons, hstep]
    exact ih hothers (hstep ▸ hruns.2)
  | case9 tasks lowering hstack =>
    obtain ⟨others, hothers, rfl⟩ := exists_of_mapM_resolve_cons hsteps rfl
    have hlength : 1 ≤ lowering.stack.length := hruns.1
    rw [hstack] at hlength
    exact absurd hlength (by simp)

end Lowering

/-! ## Both passes -/

/-- A query is lowered task by task as it is lowered step by step, onto any backend and whether it
can be lowered or not: the loop always finds the predicates that it needs, and where all comparisons
could be resolved before it starts, they can be resolved again. -/
theorem Query.lowerPending_eq (q : Query) (backend : Backend σ κ π) (state : σ) :
    q.lowerPending backend state =
      ((q.lower backend state).1.mapError .fault, (q.lower backend state).2) := by
  have hcomparisons : walk collect [q] [] = q.comparisons := by
    rw [walk_eq_foldl, List.flatMap_singleton, foldl_collect_preorder, List.nil_append,
      comparisons_eq_leaves]
  rw [lowerPending, lower, hcomparisons]
  cases hplan : q.plan with
  | error error =>
    rw [mapM_resolve_comparisons_eq_error_iff.mpr hplan]
    rfl
  | ok steps =>
    obtain ⟨predicate, -, -, -, hruns, hstack⟩ := exists_lower_eq backend hplan state
    have hperform := Lowering.perform_eq_foldl backend [.lower q] (Lowering.start state) hplan hruns
    cases hfirst : q.comparisons.mapM Comparison.resolve with
    | error error =>
      have herror := mapM_resolve_comparisons_eq_error_iff.mp hfirst
      cases hplan.symm.trans herror
    | ok _ =>
      simp only [hperform, hstack, Lowering.filtered]
      rfl

end ResumeFilter
