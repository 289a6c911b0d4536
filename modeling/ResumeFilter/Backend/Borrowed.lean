import ResumeFilter.Backend

/-!
# Borrowed backends

A backend need not own its state. It may work on a part of a larger state, whose owner has it back
once the lowering is done; what else there is in the larger state is none of its business.
-/

namespace ResumeFilter

variable {τ σ κ π α : Type}

/-- A part of the states `τ` that can be read and replaced. -/
structure Part (τ σ : Type) where
  get : τ → σ
  set : σ → τ → τ
  get_set (state : σ) (whole : τ) : get (set state whole) = state
  set_get (whole : τ) : set (get whole) whole = whole
  set_set (first second : σ) (whole : τ) : set second (set first whole) = set second whole

namespace Part

/-- Changes the part. -/
def update (part : Part τ σ) (f : σ → σ) (whole : τ) : τ := part.set (f (part.get whole)) whole

/-- Changes the part and passes on the answer. -/
def visit (part : Part τ σ) (f : σ → α × σ) (whole : τ) : α × τ :=
  let (answer, state) := f (part.get whole)
  (answer, part.set state whole)

end Part

/-- The backend that passes every operation on to a backend whose state is a part of its own. -/
def Backend.borrowed (part : Part τ σ) (backend : Backend σ κ π) : Backend τ κ π where
  join join := part.update (backend.join join)
  column field := part.visit (backend.column field)
  compare op column bind := part.visit (backend.compare op column bind)
  isIn column binds := part.visit (backend.isIn column binds)
  combine op left right := part.visit (backend.combine op left right)
  not inner := part.visit (backend.not inner)
  filter predicate := part.update (backend.filter predicate)
  render whole := backend.render (part.get whole)

end ResumeFilter
