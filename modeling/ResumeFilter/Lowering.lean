import ResumeFilter.Backend
import ResumeFilter.Plan

/-!
# Lowering a query onto a backend

The steps of a plan are taken one after the other, and the predicates that wait for their operator
are kept on a stack, so that a chain of any length is a loop. A query without a plan leaves the
backend alone: it hears nothing of it.
-/

namespace ResumeFilter

/-- A lowering under way: the backend's state, what has been bound and declared so far, and the
predicates that are not yet part of another one, the last one first. -/
structure Lowering (σ π : Type) where
  state : σ
  params : Array Literal
  joins : List Join
  stack : List π

namespace Lowering

variable {σ κ π : Type}

/-- The start of a lowering. -/
def start (state : σ) : Lowering σ π := ⟨state, #[], [], []⟩

/-- Declares a join unless this lowering has declared it before. -/
def declare (backend : Backend σ κ π) (join : Join) (lowering : Lowering σ π) : Lowering σ π :=
  if join ∈ lowering.joins then lowering
  else
    { lowering with
      state := backend.join join lowering.state
      joins := lowering.joins ++ [join] }

/-- The values as parameters, counted from `index` on. -/
def binds (index : Nat) (values : List Literal) : List Bind :=
  (values.zipIdx index).map fun (value, index) => ⟨index, value⟩

/-- Makes the predicate of a comparison: its join first, then its column, then its values. -/
def compare (backend : Backend σ κ π) (comparison : Resolved) (lowering : Lowering σ π) :
    Lowering σ π :=
  let lowering :=
    match comparison.field.join? with
    | some join => lowering.declare backend join
    | none => lowering
  let (column, state) := backend.column comparison.field lowering.state
  match comparison with
  | .scalar _ op value =>
    let (predicate, state) := backend.compare op column ⟨lowering.params.size, value⟩ state
    { lowering with
      state
      params := lowering.params.push value
      stack := predicate :: lowering.stack }
  | .isIn _ values =>
    let (predicate, state) := backend.isIn column (binds lowering.params.size values) state
    { lowering with
      state
      params := lowering.params ++ values
      stack := predicate :: lowering.stack }

/-- Takes one step. The steps of a query always find the predicates that they need. -/
def step (backend : Backend σ κ π) (lowering : Lowering σ π) : Step Resolved → Lowering σ π
  | .compare comparison => lowering.compare backend comparison
  | .negate =>
    match lowering.stack with
    | inner :: rest =>
      let (predicate, state) := backend.not inner lowering.state
      { lowering with state, stack := predicate :: rest }
    | [] => lowering
  | .combine op =>
    match lowering.stack with
    | right :: left :: rest =>
      let (predicate, state) := backend.combine op left right lowering.state
      { lowering with state, stack := predicate :: rest }
    | _ => lowering

/-- The state of the backend with the last predicate as its filter. -/
def filtered (backend : Backend σ κ π) (lowering : Lowering σ π) : σ :=
  match lowering.stack with
  | predicate :: _ => backend.filter predicate lowering.state
  | [] => lowering.state

end Lowering

/-- What a lowering leaves besides the backend: the literals that it bound, in the order of their
parameters, and the joins that it declared, in the order of their first use. -/
structure Lowered where
  params : List Literal
  joins : List Join
deriving DecidableEq

/-- Lowers a query onto a backend; with it comes the state that the backend ends up in. -/
def Query.lower {σ κ π : Type} (q : Query) (backend : Backend σ κ π) (state : σ) :
    Except ResolveError Lowered × σ :=
  match q.plan with
  | .error error => (.error error, state)
  | .ok steps =>
    let lowering := steps.foldl (Lowering.step backend) (Lowering.start state)
    (.ok ⟨lowering.params.toList, lowering.joins⟩, lowering.filtered backend)

end ResumeFilter
