import ResumeFilter.Proofs.Query.Layout
import ResumeFilter.Proofs.Sql.Building
import ResumeFilter.Proofs.Sql.Meaning

/-!
# The text of a statement does not depend on literals

What a query adds to a builder is decided by its shape: the joins, the condition and, if it cannot
be lowered, the error (`Query.lower_of_shape_eq`). What a text is read as is decided, up to its
shape, by the tokens that are no scalars. So the literals of a text, whatever is written in them,
have no part in the SQL (`sql_independent_of_literals`). That a text can become too long for spans
when a literal is replaced is left aside: `Token.scan` does not ask how long it is, only
`Token.scanBounded` does.
-/

namespace ResumeFilter

open Sql

/-! ## What the shape of a query decides -/

/-- An error as if all that it is about stood at the start of the source. -/
def ResolveError.unplaced : ResolveError → ResolveError
  | .unknownField name _ => .unknownField name (.empty 0)
  | .scalarWithIn field _ => .scalarWithIn field (.empty 0)
  | .setWithScalarOperator field op _ => .setWithScalarOperator field op (.empty 0)

/-- The comparisons of a shape are the shapes of the comparisons. -/
theorem Query.comparisons_shape (q : Query) :
    q.shape.comparisons = q.comparisons.map Comparison.shape := by
  induction q with
  | comparison c => rfl
  | not inner ih => rw [Query.shape, comparisons_not, comparisons_not, ih]
  | logical op left right ihleft ihright =>
    rw [Query.shape, comparisons_logical, comparisons_logical, List.map_append, ihleft, ihright]

/-- A shape has as many literals as the query. -/
theorem Query.length_literals_shape (q : Query) :
    q.shape.literals.length = q.literals.length := by
  induction q with
  | comparison c =>
    rw [Query.shape, literals, literals, Comparison.shape]
    cases c.operand <;> simp [Operand.shape, Operand.literals]
  | not inner ih => exact ih
  | logical op left right ihleft ihright =>
    rw [Query.shape, literals, literals, List.length_append, List.length_append, ihleft, ihright]

/-- A shape needs the joins of the query. -/
theorem Query.joins_shape (q : Query) : q.shape.joins = q.joins := by
  rw [joins, joins, comparisons_shape, List.filterMap_map]
  rfl

/-- A shape becomes the condition of the comparison. -/
theorem Comparison.condition?_shape (c : Comparison) (index : Nat) :
    c.shape.condition? index = c.condition? index := by
  rw [condition?, condition?, name_shape, op_shape, operand_shape]
  cases c.op <;> cases c.operand <;> simp [Operand.shape]

/-- A shape becomes the condition of the query. -/
theorem Query.condition?_shape (q : Query) (index : Nat) :
    q.shape.condition? index = q.condition? index := by
  induction q generalizing index with
  | comparison c => exact c.condition?_shape index
  | not inner ih => rw [Query.shape, condition?, condition?, ih]
  | logical op left right ihleft ihright =>
    rw [Query.shape, condition?, condition?, ihleft, length_literals_shape]
    simp only [ihright]

/-- What is wrong with a comparison is wrong with its shape. -/
theorem Comparison.error?_shape (c : Comparison) :
    c.shape.error?.map ResolveError.unplaced = c.error?.map ResolveError.unplaced := by
  rw [error?, error?, resolve, resolve, name_shape, op_shape, operand_shape]
  cases Field.ofName? c.field.name with
  | none => rfl
  | some field => cases c.op <;> cases c.operand <;> rfl

/-- Why a query has no plan, apart from the place, if it has none. -/
def Query.failure? (q : Query) : Option ResolveError :=
  (q.comparisons.findSome? Comparison.error?).map ResolveError.unplaced

/-- A shape fails as the query does. -/
theorem Query.failure?_shape (q : Query) : q.shape.failure? = q.failure? := by
  rw [failure?, failure?, comparisons_shape, List.map_findSome?, List.map_findSome?,
    List.findSome?_map]
  congr 1
  funext c
  exact c.error?_shape

/-- A query without a plan fails. -/
theorem Query.failure?_of_error {q : Query} {error : ResolveError} (h : q.plan = .error error) :
    q.failure? = some error.unplaced := by
  rw [failure?, plan_eq_error_iff.mp h, Option.map_some]

/-- A query with a plan does not fail. -/
theorem Query.failure?_of_ok {q : Query} {steps : List (Step Resolved)} (h : q.plan = .ok steps) :
    q.failure? = none := by
  rw [failure?, Option.map_eq_none_iff, ← Option.not_isSome_iff_eq_none, Option.isSome_iff_exists]
  rintro ⟨error, herror⟩
  exact absurd (plan_eq_error_iff.mpr herror) (by simp [h])

/-- Queries of one shape, lowered onto one builder, either both fail, with the same error apart from
its place, or leave the same builder, the same joins and equally many parameters. -/
theorem Query.lower_of_shape_eq {q q' : Query} (h : q.shape = q'.shape) (builder : Builder) :
    (∃ error error',
      q.lower Builder.backend builder = (.error error, builder) ∧
        q'.lower Builder.backend builder = (.error error', builder) ∧
        error.unplaced = error'.unplaced) ∨
    ∃ lowered lowered' last,
      q.lower Builder.backend builder = (.ok lowered, last) ∧
        q'.lower Builder.backend builder = (.ok lowered', last) ∧
        lowered.joins = lowered'.joins ∧ lowered.params.length = lowered'.params.length := by
  have hfailure : q.failure? = q'.failure? := by rw [← failure?_shape, h, failure?_shape]
  cases hplan : q.plan with
  | error error =>
    rw [failure?_of_error hplan] at hfailure
    cases hplan' : q'.plan with
    | error error' =>
      rw [failure?_of_error hplan'] at hfailure
      refine .inl ⟨error, error', ?_, ?_, Option.some.inj hfailure⟩
      · rw [lower, hplan]
      · rw [lower, hplan']
    | ok steps' => exact absurd (hfailure.trans (failure?_of_ok hplan')) (Option.some_ne_none _)
  | ok steps =>
    rw [failure?_of_ok hplan] at hfailure
    cases hplan' : q'.plan with
    | error error' =>
      exact absurd (hfailure.trans (failure?_of_error hplan')).symm (Option.some_ne_none _)
    | ok steps' =>
      obtain ⟨condition, hcondition, hlower⟩ := lower_builder hplan builder
      obtain ⟨condition', hcondition', hlower'⟩ := lower_builder hplan' builder
      have hjoins : q.joins = q'.joins := by rw [← joins_shape, h, joins_shape]
      have hsame : condition = condition' := by
        rw [← condition?_shape, h, condition?_shape, hcondition'] at hcondition
        exact (Option.some.inj hcondition).symm
      rw [← hsame, ← hjoins] at hlower'
      refine .inr ⟨_, _, _, hlower, hlower', rfl, ?_⟩
      rw [← length_literals_shape, h, length_literals_shape]

/-! ## Replacing the text of a scalar -/

/-- Whether tokens are the same apart from their places, or are both scalars that have a literal. -/
def Token.SameButScalars (token token' : Token) : Prop :=
  token.spelling = token'.spelling ∨
    ∃ literal literal', token.literal? = some literal ∧ token'.literal? = some literal' ∧
      token.kind.isScalar ∧ token'.kind.isScalar

/-- The parser cannot tell such tokens apart but by what the literals are. -/
theorem Token.links_sameButScalars : Token.Links Token.SameButScalars fun _ _ => True where
  kind := by
    rintro t t' (hspelling | ⟨_, _, -, -, hscalar, hscalar'⟩) kind hkind
    · rw [(Prod.mk.inj hspelling).1]
    · constructor
      · rintro rfl
        exact absurd hscalar (by simp [hkind])
      · rintro rfl
        exact absurd hscalar' (by simp [hkind])
  name := by
    rintro t t' (hspelling | ⟨_, _, -, -, hscalar, -⟩) hkind
    · exact (Prod.mk.inj hspelling).2
    · rw [hkind] at hscalar
      exact absurd hscalar nofun
  literal := by
    rintro t t' (hspelling | ⟨literal, literal', hliteral, hliteral', -, -⟩) -
    · rw [literal?_of_spelling hspelling]
      cases t'.literal? with
      | none => exact .none
      | some literal => exact .some trivial
    · rw [hliteral, hliteral']
      exact .some trivial

/-- Tokens with the same spellings are the same apart from their places. -/
theorem Token.sameButScalars_of_spellings {tokens tokens' : List Token}
    (h : tokens.map Token.spelling = tokens'.map Token.spelling) :
    List.Forall₂ Token.SameButScalars tokens tokens' :=
  (forall₂_spelling_eq h).imp fun _ _ hspelling => .inl hspelling

/-- Tokens with a scalar among them are the same, apart from their places, as tokens with another
scalar in its place. -/
theorem Token.sameButScalars_splice {before after tokens : List Token} {token token' : Token}
    {literal literal' : Literal} (hends : token.HasEnds) (h : token.Denotes literal)
    (hends' : token'.HasEnds) (h' : token'.Denotes literal')
    (hspellings : tokens.map Token.spelling =
      (before ++ [token'] ++ after).map Token.spelling) :
    List.Forall₂ Token.SameButScalars (before ++ token :: after) tokens := by
  rw [List.append_assoc, List.singleton_append, List.map_append, List.map_cons] at hspellings
  obtain ⟨first, rest, rfl, hfirst, hrest⟩ := List.map_eq_append_iff.mp hspellings
  obtain ⟨other, last, rfl, hother, hlast⟩ := List.map_eq_cons_iff.mp hrest
  have hliteral := ((Token.literal?_eq_some_iff hends).mpr h).2
  have hliteral' := ((Token.literal?_eq_some_iff hends').mpr h').2
  have hscalar : other.kind.isScalar = true := by
    rw [(Prod.mk.inj hother).1]
    exact isScalar_of_denotes h'
  rw [← literal?_of_spelling hother] at hliteral'
  refine List.rel_append (sameButScalars_of_spellings hfirst.symm) (.cons ?_
    (sameButScalars_of_spellings hlast.symm))
  exact .inr ⟨literal, literal', hliteral, hliteral', isScalar_of_denotes h, hscalar⟩

/-- A text that has a statement has one with the same SQL if a scalar is replaced by another one. -/
theorem Sql.exists_ofSource_splice {config : Config} {source : String} {statement : Statement}
    (h : Statement.ofSource config source = .ok statement) {tokens : List Token}
    (hscan : Token.scan source.toList = .ok tokens) {token : Token}
    (htoken : token ∈ Token.scalars tokens) {text : List Char} {token' : Token} {literal : Literal}
    (htext : Token.scan text = .ok [token']) (hdenotes : token'.Denotes literal) :
    ∃ statement',
      Statement.ofSource config (String.ofList (Text.splice source.toList token.span text)) =
        .ok statement' ∧ statement'.sql = statement.sql := by
  obtain ⟨q, lowered, builder, hparse, hlower, rfl⟩ := exists_parse_of_ofSource h
  obtain ⟨tokens', hscan', -, hderives⟩ := Query.exists_derives_of_parse hparse
  obtain rfl := Except.ok.inj (hscan.symm.trans hscan')
  obtain ⟨literal', hdenotes'⟩ := hderives.exists_denotes htoken
  obtain ⟨hmem, -⟩ := List.mem_filter.mp htoken
  obtain ⟨before, after, rfl⟩ := List.append_of_mem hmem
  obtain ⟨spliced, hspliced, hspellings⟩ := exists_scan_splice hscan htext
  have hsame := Token.sameButScalars_splice (Token.hasEnds_of_scan hscan token hmem) hdenotes'
    (Token.hasEnds_of_scan htext token' List.mem_cons_self) hdenotes hspellings
  have hlimit : (⟨Text.byteLength source.toList, some Parser.defaultDepthLimit⟩ :
      Parser.Setting).depthLimit =
    (⟨Text.byteLength (Text.splice source.toList token.span text),
      some Parser.defaultDepthLimit⟩ : Parser.Setting).depthLimit := rfl
  rw [Query.parse, hscan] at hparse
  obtain ⟨q', hq', halike⟩ :=
    (linked_ofTokens Token.links_sameButScalars hlimit hsame).exists_ok hparse
  have hparse' : Query.parse (String.ofList (Text.splice source.toList token.span text)) =
      .ok q' := by
    rw [Query.parse, String.toList_ofList, hspliced]
    exact hq'
  rcases Query.lower_of_shape_eq halike.shape_eq (Builder.empty config) with
    ⟨error, -, herror, -⟩ | ⟨_, lowered', last, hok, hok', -, -⟩
  · exact absurd (hlower.symm.trans herror) (by simp)
  · obtain ⟨-, rfl⟩ := Prod.mk.inj (hlower.symm.trans hok)
    refine ⟨⟨builder.render, lowered'.params⟩, ?_, rfl⟩
    rw [Statement.ofSource, Builder.addQuery, hparse']
    simp only [hok']

/-- Literals have no part in the text of a statement.

Queries of one shape, lowered onto one builder, either both fail, with the same error apart from its
place, or leave the same builder, and so the same text, with the same joins and equally many
parameters. And in a text that has a statement, any scalar can be replaced by the text of any other
one, set off by blanks: the statement of that text has the same SQL. -/
theorem Sql.sql_independent_of_literals :
    (∀ (builder : Builder) (q q' : Query), q.shape = q'.shape →
      (∃ error error',
        q.lower Builder.backend builder = (.error error, builder) ∧
          q'.lower Builder.backend builder = (.error error', builder) ∧
          error.unplaced = error'.unplaced) ∨
      ∃ lowered lowered' last,
        q.lower Builder.backend builder = (.ok lowered, last) ∧
          q'.lower Builder.backend builder = (.ok lowered', last) ∧
          lowered.joins = lowered'.joins ∧ lowered.params.length = lowered'.params.length) ∧
    ∀ (config : Config) (source : String) (statement : Statement),
      Statement.ofSource config source = .ok statement →
      ∃ tokens, Token.scan source.toList = .ok tokens ∧
        ∀ token ∈ Token.scalars tokens, ∀ (text : List Char) (token' : Token) (literal : Literal),
          Token.scan text = .ok [token'] → token'.Denotes literal →
          ∃ statement',
            Statement.ofSource config
              (String.ofList (Text.splice source.toList token.span text)) = .ok statement' ∧
            statement'.sql = statement.sql := by
  refine ⟨fun builder q q' h => Query.lower_of_shape_eq h builder, ?_⟩
  intro config source statement h
  obtain ⟨q, -, -, hparse, -, -⟩ := exists_parse_of_ofSource h
  obtain ⟨tokens, hscan, -, -⟩ := Query.exists_derives_of_parse hparse
  refine ⟨tokens, hscan, ?_⟩
  intro token htoken text token' literal htext hdenotes
  exact exists_ofSource_splice h hscan htoken htext hdenotes

/-- A string with quotes and SQL of its own, in place of another string, leaves the SQL as it was;
and asking whether a field is in a number is the same mistake as asking whether it is in a
string. -/
theorem Sql.sql_of_quotes_in_string :
    let among := fun literal place =>
      Query.comparison ⟨⟨"YOE", .empty 0⟩, .isIn, .scalar ⟨literal, .empty place⟩⟩
    (∃ statement',
      Statement.ofSource ⟨.dollar, false⟩
        "NOT LOCATION =  \"x'; DROP TABLE resumes; --\" " = .ok statement' ∧
      statement'.sql =
        "SELECT resumes.* FROM resumes WHERE NOT (resumes.location = $1)") ∧
    ∃ error error',
      (among (.int 7) 7).lower Builder.backend (Builder.empty ⟨.dollar, false⟩) =
        (.error error, Builder.empty ⟨.dollar, false⟩) ∧
      (among (.str "7") 9).lower Builder.backend (Builder.empty ⟨.dollar, false⟩) =
        (.error error', Builder.empty ⟨.dollar, false⟩) ∧
      error.unplaced = error'.unplaced := by
  intro among
  obtain ⟨htrees, hsources⟩ := sql_independent_of_literals
  constructor
  · have h : Statement.ofSource ⟨.dollar, false⟩ "NOT LOCATION = 'Oslo'" =
        .ok ⟨"SELECT resumes.* FROM resumes WHERE NOT (resumes.location = $1)",
          [.str "Oslo"]⟩ := by
      decide +kernel
    have hscan : Token.scan "NOT LOCATION = 'Oslo'".toList =
        .ok [⟨.not, ⟨0, 3⟩, "NOT"⟩, ⟨.identifier, ⟨4, 12⟩, "LOCATION"⟩, ⟨.eq, ⟨13, 14⟩, "="⟩,
          ⟨.stringLit, ⟨15, 21⟩, "'Oslo'"⟩] := by
      decide +kernel
    have htext : Token.scan "\"x'; DROP TABLE resumes; --\"".toList =
        .ok [⟨.stringLit, ⟨0, 28⟩, "\"x'; DROP TABLE resumes; --\""⟩] := by
      decide +kernel
    obtain ⟨tokens, htokens, hsplice⟩ := hsources _ _ _ h
    obtain rfl := Except.ok.inj (hscan.symm.trans htokens)
    exact hsplice ⟨.stringLit, ⟨15, 21⟩, "'Oslo'"⟩ (by decide) _ _ _ htext (.string rfl)
  · have hshape : (among (.int 7) 7).shape = (among (.str "7") 9).shape := rfl
    refine (htrees (Builder.empty ⟨.dollar, false⟩) _ _ hshape).resolve_right ?_
    rintro ⟨lowered, -, last, hlower, -, -, -⟩
    exact absurd (Prod.mk.inj hlower).1 nofun

end ResumeFilter
