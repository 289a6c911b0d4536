import ResumeFilter.Lowering
import ResumeFilter.Query.Pending

/-!
# Lowering with a list of pending tasks

A query can be lowered without writing its steps down first. What is still to be done is kept in a
list, the next task first: to lower a condition is to put the tasks for its parts in front of the
others, with the operator that waits for their predicates behind them. So there are two stacks, one
of tasks and one of predicates, and a single loop that works on both.

All comparisons are resolved once before the loop starts, and each of them again when its turn has
come. Unlike a lowering by steps, the loop could do something wrong in its second pass: meet a
comparison that cannot be resolved, or find too few predicates.
-/

namespace ResumeFilter

/-- What is still to be done in a lowering. -/
inductive Task
  /-- Makes a predicate of a condition. -/
  | lower (q : Query)
  /-- Negates the last predicate. -/
  | negate
  /-- Joins the last two predicates. -/
  | combine (op : LogicalOp)

/-- No more turns than this are taken for a task. -/
def Task.size : Task → Nat
  | .lower q => 2 * q.size
  | .negate => 1
  | .combine _ => 1

/-- No more turns than this are taken for pending tasks. -/
def Task.pendingSize : List Task → Nat
  | [] => 0
  | task :: tasks => task.size + pendingSize tasks

namespace Lowering

/-- Why a lowering by tasks comes to no result. -/
inductive Halt
  /-- A comparison makes no sense. -/
  | fault (error : ResolveError)
  /-- A predicate is missing. -/
  | noPredicate
deriving DecidableEq

variable {σ κ π : Type}

/-- Performs pending tasks, and those that they bring up, until none is left. -/
def perform (backend : Backend σ κ π) :
    List Task → Lowering σ π → Except Halt Unit × Lowering σ π
  | [], lowering => (.ok (), lowering)
  | .lower (.logical op left right) :: tasks, lowering =>
    perform backend (.lower left :: .lower right :: .combine op :: tasks) lowering
  | .lower (.not inner) :: tasks, lowering =>
    perform backend (.lower inner :: .negate :: tasks) lowering
  | .lower (.comparison c) :: tasks, lowering =>
    match c.resolve with
    | .ok resolved => perform backend tasks (lowering.compare backend resolved)
    | .error error => (.error (.fault error), lowering)
  | .combine op :: tasks, lowering =>
    match lowering.stack with
    | right :: left :: rest =>
      let (predicate, state) := backend.combine op left right lowering.state
      perform backend tasks { lowering with state, stack := predicate :: rest }
    | _ => (.error .noPredicate, lowering)
  | .negate :: tasks, lowering =>
    match lowering.stack with
    | inner :: rest =>
      let (predicate, state) := backend.not inner lowering.state
      perform backend tasks { lowering with state, stack := predicate :: rest }
    | [] => (.error .noPredicate, lowering)
termination_by tasks => Task.pendingSize tasks
decreasing_by all_goals simp only [Task.pendingSize, Task.size, Query.size]; omega

end Lowering

/-- Lowers a query onto a backend task by task; with it comes the state that the backend ends up
in. -/
def Query.lowerPending {σ κ π : Type} (q : Query) (backend : Backend σ κ π) (state : σ) :
    Except Lowering.Halt Lowered × σ :=
  match (walk collect [q] []).mapM Comparison.resolve with
  | .error error => (.error (.fault error), state)
  | .ok _ =>
    match Lowering.perform backend [.lower q] (Lowering.start state) with
    | (.error halt, lowering) => (.error halt, lowering.state)
    | (.ok _, lowering) =>
      match lowering.stack with
      | [] => (.error .noPredicate, lowering.state)
      | predicate :: _ =>
        (.ok ⟨lowering.params.toList, lowering.joins⟩, backend.filter predicate lowering.state)

end ResumeFilter
