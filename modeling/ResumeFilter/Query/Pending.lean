import ResumeFilter.Query.Outline

/-!
# Walking through a query with a list of pending parts

A walk need not go into the parts of a query one inside the other. It can keep a list of the parts
that it still has to visit, the next one first, and put the parts of what it visits in front of it:
walking is then a loop, however deep the query is. An outline is written in this way as well, with
the level of every part beside it.
-/

namespace ResumeFilter.Query

universe u

/-- The number of conditions in a query, itself among them. -/
def size : Query → Nat
  | .comparison _ => 1
  | .not inner => inner.size + 1
  | .logical _ left right => left.size + right.size + 1

/-- The number of conditions in pending queries. -/
def pendingSize : List Query → Nat
  | [] => 0
  | q :: pending => q.size + pendingSize pending

/-- Visits the conditions of pending queries; `visit` says what a visit makes of a state. -/
def walk {σ : Type u} (visit : σ → Query → σ) : List Query → σ → σ
  | [], state => state
  | .comparison c :: pending, state => walk visit pending (visit state (.comparison c))
  | .not inner :: pending, state => walk visit (inner :: pending) (visit state (.not inner))
  | .logical op left right :: pending, state =>
    walk visit (left :: right :: pending) (visit state (.logical op left right))
termination_by pending => pendingSize pending
decreasing_by all_goals simp only [pendingSize, size]; omega

/-- Notes a condition behind those that were found before if it is a comparison. -/
def collect (found : List Comparison) : Query → List Comparison
  | .comparison c => found ++ [c]
  | _ => found

/-- The largest of `best` and the levels that pending queries reach, each from its own level on. -/
def deepestPending : List (Query × Nat) → Nat → Nat
  | [], best => best
  | (.comparison _, level) :: pending, best => deepestPending pending (max best level)
  | (.not inner, level) :: pending, best =>
    deepestPending ((inner, level + 1) :: pending) (max best level)
  | (.logical _ left right, level) :: pending, best =>
    deepestPending ((right, level + 1) :: (left, level + 1) :: pending) (max best level)
termination_by pending => pendingSize (pending.map Prod.fst)
decreasing_by all_goals simp only [List.map_cons, pendingSize, size]; omega

/-- Writes the lines of pending queries, each at its own level, behind what has been written. -/
def outlinePending (places : Bool) : List (Query × Nat) → String → String
  | [], written => written
  | (.logical op left right, level) :: pending, written =>
    outlinePending places ((left, level + 1) :: (right, level + 1) :: pending)
      (written ++ outlineLine level ("Logical(" ++ op.text ++ ")"))
  | (.not inner, level) :: pending, written =>
    outlinePending places ((inner, level + 1) :: pending)
      (written ++ outlineLine level "Logical(NOT)")
  | (.comparison c, level) :: pending, written =>
    outlinePending places pending (written ++ String.join (c.outline places level))
termination_by pending => pendingSize (pending.map Prod.fst)
decreasing_by all_goals simp only [List.map_cons, pendingSize, size]; omega

end ResumeFilter.Query
