import ResumeFilter.Catalog
import ResumeFilter.Query

/-!
# What a query is lowered onto

A backend builds queries in some other form. It is driven from below: joins are declared before the
first column that needs them, a predicate is made for every comparison, predicates are combined, and
at the end one of them becomes the filter. A backend is any state with operations on it; nothing is
assumed about what they do.
-/

namespace ResumeFilter

/-- A literal bound to a place in the list of parameters. -/
structure Bind where
  index : Nat
  value : Literal
deriving DecidableEq

/-- The operations of a backend with states `σ`, columns `κ` and predicates `π`. -/
structure Backend (σ κ π : Type) where
  /-- Declares a join. -/
  join : Join → σ → σ
  /-- Refers to the column of a field. -/
  column : Field → σ → κ × σ
  /-- Compares a column with one value. -/
  compare : ScalarOp → κ → Bind → σ → π × σ
  /-- Asks whether a column is among the values, of which there may be none. -/
  isIn : κ → List Bind → σ → π × σ
  /-- Joins two predicates. -/
  combine : LogicalOp → π → π → σ → π × σ
  /-- Negates a predicate. -/
  not : π → σ → π × σ
  /-- Makes a predicate the filter of the query. -/
  filter : π → σ → σ
  /-- The text of the query as it stands. -/
  render : σ → String

end ResumeFilter
