import Mathlib.Data.List.Forall2
import ResumeFilter.Proofs.Query.Literals
import ResumeFilter.Query.Parse

/-!
# Queries that differ in their values

Two queries are alike if they have the same structure, field names and operators, and if the
literals at the same places are related; the places in the source do not matter. Whatever the
relation is, such queries have one shape: the query that is left when all literals and places are
blotted out (`Query.Alike.shape_eq`).
-/

namespace ResumeFilter

/-! ## Alike queries -/

section Alike

variable (R : Literal → Literal → Prop)

/-- Whether the literals of values are related. -/
def Value.Alike (v v' : Value) : Prop := R v.literal v'.literal

/-- Whether operands are both single values or both sets, with related literals. -/
inductive Operand.Alike : Operand → Operand → Prop
  | scalar {value value' : Value} (h : value.Alike R value') :
    Alike (.scalar value) (.scalar value')
  | set {values values' : List Value} (h : List.Forall₂ (Value.Alike R) values values')
    (span span' : Span) : Alike (.set values span) (.set values' span')

/-- Whether comparisons have the same field name and operator, and operands that are alike. -/
structure Comparison.Alike (c c' : Comparison) : Prop where
  name : c.field.name = c'.field.name
  op : c.op = c'.op
  operand : c.operand.Alike R c'.operand

/-- Whether queries have the same structure, and comparisons that are alike. -/
inductive Query.Alike : Query → Query → Prop
  | comparison {c c' : Comparison} (h : c.Alike R c') : Alike (.comparison c) (.comparison c')
  | not {inner inner' : Query} (h : Alike inner inner') : Alike (.not inner) (.not inner')
  | logical (op : LogicalOp) {left left' right right' : Query} (hleft : Alike left left')
    (hright : Alike right right') : Alike (.logical op left right) (.logical op left' right')

end Alike

/-! ## Shapes -/

/-- The value that stands for every value in a shape. -/
def Value.blot : Value := ⟨.bool false, .empty 0⟩

/-- An operand with its literals and places blotted out. -/
def Operand.shape : Operand → Operand
  | .scalar _ => .scalar .blot
  | .set values _ => .set (values.map fun _ => .blot) (.empty 0)

/-- A comparison with its literals and places blotted out. -/
def Comparison.shape (c : Comparison) : Comparison :=
  ⟨⟨c.field.name, .empty 0⟩, c.op, c.operand.shape⟩

@[simp]
theorem Comparison.name_shape (c : Comparison) : c.shape.field.name = c.field.name := rfl

@[simp]
theorem Comparison.op_shape (c : Comparison) : c.shape.op = c.op := rfl

@[simp]
theorem Comparison.operand_shape (c : Comparison) : c.shape.operand = c.operand.shape := rfl

/-- A query with its literals and places blotted out. -/
def Query.shape : Query → Query
  | .comparison c => .comparison c.shape
  | .not inner => .not inner.shape
  | .logical op left right => .logical op left.shape right.shape

section Shapes

variable {R : Literal → Literal → Prop}

/-- Operands that are alike have one shape. -/
theorem Operand.Alike.shape_eq {o o' : Operand} (h : o.Alike R o') : o.shape = o'.shape := by
  cases h with
  | scalar h => rfl
  | set h span span' =>
    rw [Operand.shape, Operand.shape, List.map_const', List.map_const', h.length_eq]

/-- Queries that are alike have one shape. -/
theorem Query.Alike.shape_eq {q q' : Query} (h : q.Alike R q') : q.shape = q'.shape := by
  induction h with
  | comparison h =>
    rw [Query.shape, Query.shape, Comparison.shape, Comparison.shape, h.name, h.op,
      h.operand.shape_eq]
  | not h ih => rw [Query.shape, Query.shape, ih]
  | logical op hleft hright ihleft ihright => rw [Query.shape, Query.shape, ihleft, ihright]

end Shapes

end ResumeFilter
