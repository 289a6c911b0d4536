import ResumeFilter.Backend
import ResumeFilter.Sql.Select

/-!
# Building a select

The builder is the backend for SQL. A join that is declared again changes nothing, and a further
filter is joined to the one that is there by AND, so that one builder can take several queries.

The select grows with every join, by the hops of that join. That it has the hops of all joins and no
others is kept by everything that can be done to a builder, and therefore part of it.
-/

namespace ResumeFilter.Sql

/-- A select in the making. -/
structure Builder where
  config : Config
  /-- The select that has been built so far. -/
  select : Select
  /-- The joins in the order of their first declaration. -/
  joins : List Join
  /-- The select brings in the hops of the joins, one join after the other. -/
  steps_eq : select.joins = joins.flatMap Join.steps
deriving DecidableEq

namespace Builder

/-- A builder that selects every row of the base relation. -/
def empty (config : Config) : Builder := ⟨config, ⟨[], none⟩, [], rfl⟩

/-- The condition that has been demanded of every row so far, if there is one. -/
def filter (builder : Builder) : Option Condition := builder.select.filter

/-- The text of the select that has been built so far. -/
def render (builder : Builder) : String := builder.select.text builder.config

/-- Declares a join: its hops come behind those of the select. -/
def join (join : Join) (builder : Builder) : Builder :=
  if join ∈ builder.joins then builder
  else
    { builder with
      select := { builder.select with joins := builder.select.joins ++ join.steps }
      joins := builder.joins ++ [join]
      steps_eq := by rw [builder.steps_eq, List.flatMap_append, List.flatMap_singleton] }

/-- Demands one more condition of every row. -/
def addFilter (condition : Condition) (builder : Builder) : Builder :=
  { builder with
    select :=
      { builder.select with
        filter :=
          match builder.filter with
          | none => some condition
          | some before => some (.combine .and before condition) } }

/-- The select of a builder by its joins and its filter. -/
theorem select_eq (builder : Builder) :
    builder.select = ⟨builder.joins.flatMap Join.steps, builder.filter⟩ := by
  rw [← builder.steps_eq, filter]

/-- Only a join that is new is added to the others. -/
theorem joins_join (join : Join) (builder : Builder) :
    (builder.join join).joins =
      if join ∈ builder.joins then builder.joins else builder.joins ++ [join] := by
  rw [Builder.join, apply_ite Builder.joins]

/-- Declaring a join leaves the configuration and the filter. -/
theorem config_and_filter_join (join : Join) (builder : Builder) :
    (builder.join join).config = builder.config ∧
      (builder.join join).filter = builder.filter := by
  unfold Builder.join
  split <;> exact ⟨rfl, rfl⟩

/-- A further condition is joined to the filter. -/
theorem filter_addFilter (condition : Condition) (builder : Builder) :
    (builder.addFilter condition).filter =
      match builder.filter with
      | none => some condition
      | some before => some (.combine .and before condition) := rfl

/-- The backend that builds a select. -/
def backend : Backend Builder Column Condition where
  join := Builder.join
  column field builder := (field.column, builder)
  compare op column bind builder := (.compare column op bind.index, builder)
  isIn column binds builder := (.isIn column (binds.map Bind.index), builder)
  combine op left right builder := (.combine op left right, builder)
  not inner builder := (.not inner, builder)
  filter := addFilter
  render := render

end Builder

end ResumeFilter.Sql
