import ResumeFilter.Proofs.Lowering.Failure
import ResumeFilter.Proofs.Query.Cheapest
import ResumeFilter.Proofs.Sql.Independence

/-!
# Putting the canonical text in place of a source

Places play no part in what a query adds to a builder (`Query.lower_of_unplaced_eq`). As the
canonical text of a query nests no deeper than any source of the query, it is read wherever the
source is, and it stands for the same statement (`text_cheapest_and_interchangeable`).
-/

namespace ResumeFilter

open Token Sql

/-! ## Lowering without places -/

/-- Places play no part in the shape of a query. -/
theorem Query.shape_unplaced (q : Query) : q.unplaced.shape = q.shape := by
  induction q with
  | comparison c =>
    have hoperand : c.operand.unplaced.shape = c.operand.shape := by
      cases c.operand with
      | scalar value => rfl
      | set values span =>
        rw [Operand.unplaced, Operand.shape, Operand.shape, List.map_map]
        rfl
    rw [unplaced, shape, shape, Comparison.shape, Comparison.shape, Comparison.unplaced, hoperand]
  | not inner ih => rw [unplaced, shape, shape, ih]
  | logical op left right ihleft ihright => rw [unplaced, shape, shape, ihleft, ihright]

/-- Places play no part in the literals of a query. -/
theorem Query.literals_unplaced (q : Query) : q.unplaced.literals = q.literals := by
  induction q with
  | comparison c =>
    rw [unplaced, literals, literals, Comparison.unplaced]
    cases c.operand <;> simp [Operand.unplaced, Operand.literals, Value.unplaced]
  | not inner ih => exact ih
  | logical op left right ihleft ihright => rw [unplaced, literals, literals, ihleft, ihright]

/-- The parameters of a query that was lowered are its literals. -/
theorem Query.params_of_lower {q : Query} {lowered : Lowered} {builder last : Builder}
    (h : q.lower Builder.backend builder = (.ok lowered, last)) : lowered.params = q.literals := by
  cases hplan : q.plan with
  | error error =>
    rw [lower_of_plan_eq_error _ hplan] at h
    exact absurd (Prod.mk.inj h).1 nofun
  | ok steps =>
    obtain ⟨condition, -, hlower⟩ := lower_builder hplan builder
    obtain ⟨hlowered, -⟩ := Prod.mk.inj (h.symm.trans hlower)
    rw [Except.ok.inj hlowered]

/-- Queries that differ in their places only, lowered onto one builder, either both fail, with the
same error apart from its place, or leave the same behind. -/
theorem Query.lower_of_unplaced_eq {q q' : Query} (h : q.unplaced = q'.unplaced)
    (builder : Builder) :
    (∃ error error',
      q.lower Builder.backend builder = (.error error, builder) ∧
        q'.lower Builder.backend builder = (.error error', builder) ∧
        error.unplaced = error'.unplaced) ∨
    ∃ lowered last,
      q.lower Builder.backend builder = (.ok lowered, last) ∧
        q'.lower Builder.backend builder = (.ok lowered, last) := by
  have hshape : q.shape = q'.shape := by rw [← shape_unplaced, h, shape_unplaced]
  have hliterals : q.literals = q'.literals := by rw [← literals_unplaced, h, literals_unplaced]
  rcases lower_of_shape_eq hshape builder with
    herror | ⟨⟨params, joins⟩, ⟨params', joins'⟩, last, hok, hok', hjoins, -⟩
  · exact .inl herror
  · have hparams : params = q.literals := params_of_lower hok
    have hparams' : params' = q'.literals := params_of_lower hok'
    have hsame : (⟨params, joins⟩ : Lowered) = ⟨params', joins'⟩ := by
      rw [hparams, hparams', hliterals, show joins = joins' from hjoins]
    exact .inr ⟨_, last, hok, hsame ▸ hok'⟩

/-- A text that is read as a query is the same query without a limit on nesting. -/
theorem parse_none_of_parse {source : String} {limit : Option Nat} {q : Query}
    (h : Query.parse source limit = .ok q) : Query.parse source none = .ok q := by
  obtain ⟨tokens, hscan, hderives, -⟩ := parse_eq_ok_iff.mp h
  exact parse_eq_ok_iff.mpr ⟨tokens, hscan, hderives, nofun⟩

/-- The statement of a text that is read as a query is what the query leaves behind. -/
theorem Sql.ofSource_eq {config : Config} {source : String} {q : Query}
    (h : Query.parse source = .ok q) :
    Statement.ofSource config source =
      match q.lower Builder.backend (Builder.empty config) with
      | (.error error, _) => .error (.resolve error)
      | (.ok lowered, builder) => .ok ⟨builder.render, lowered.params⟩ := by
  rw [Statement.ofSource, Builder.addQuery, h]
  simp only
  cases q.lower Builder.backend (Builder.empty config) with
  | mk result builder => cases result <;> rfl

/-! ## The canonical text -/

/-- The canonical text of a query that was read is read as this query under the same limit. -/
theorem readFrom_text {source : String} {limit : Option Nat} {q : Query}
    (h : Query.parse source limit = .ok q) : q.ReadFrom q.text limit := by
  obtain ⟨tokens, hscan, -, hlimit⟩ := parse_eq_ok_iff.mp h
  obtain ⟨canon, hcanon, hcheapest⟩ := q.exists_cheapest_text (Query.printable_of_parse h)
  obtain ⟨-, hdeepest⟩ := hcheapest source limit tokens ⟨q, h, rfl⟩ hscan
  obtain ⟨q', hparse, hunplaced⟩ := exists_parse_text (Query.printable_of_parse h)
  obtain ⟨canon', hcanon', hderives, -⟩ := parse_eq_ok_iff.mp hparse
  obtain rfl := Except.ok.inj (hcanon.symm.trans hcanon')
  exact ⟨q', parse_eq_ok_iff.mpr ⟨canon, hcanon, hderives, fun bound hbound =>
    Nat.le_trans hdeepest (hlimit bound hbound)⟩, hunplaced⟩

/-- The canonical text of a query is its cheapest spelling and interchangeable with every other.
Among all texts that are read as the query it has the fewest tokens and nests the least deep. So it
is read as the query under every limit under which a source of the query is read, and it has the
same statement as the source, or the same error if the query has none, apart from its place. -/
theorem text_cheapest_and_interchangeable {source : String} {limit : Option Nat} {q : Query}
    (h : Query.parse source limit = .ok q) :
    ∃ canon, scan q.text.toList = .ok canon ∧
      (∀ source' limit' tokens', q.ReadFrom source' limit' → scan source'.toList = .ok tokens' →
        canon.length ≤ tokens'.length ∧ deepest canon ≤ deepest tokens') ∧
      q.ReadFrom q.text limit ∧
      ∀ config : Config,
        (∀ statement, Statement.ofSource config source = .ok statement →
          Statement.ofSource config q.text = .ok statement) ∧
        ∀ error, Statement.ofSource config source = .error (.resolve error) →
          ∃ error', Statement.ofSource config q.text = .error (.resolve error') ∧
            error'.unplaced = error.unplaced := by
  obtain ⟨canon, hcanon, hcheapest⟩ := q.exists_cheapest_text (Query.printable_of_parse h)
  refine ⟨canon, hcanon, hcheapest, readFrom_text h, fun config => ?_⟩
  cases hdefault : Query.parse source with
  | error error =>
    have hnone : Statement.ofSource config source = .error (.parse error) := by
      rw [Statement.ofSource, Builder.addQuery, hdefault]
    rw [hnone]
    constructor <;> rintro _ ⟨⟩
  | ok q' =>
    -- The limit of statements need not be the one in question, but there is only one query.
    obtain rfl : q = q' :=
      Except.ok.inj ((parse_none_of_parse h).symm.trans (parse_none_of_parse hdefault))
    obtain ⟨q', hparse, hunplaced⟩ := readFrom_text hdefault
    rw [ofSource_eq hdefault, ofSource_eq hparse]
    rcases Query.lower_of_unplaced_eq hunplaced (Builder.empty config) with
      ⟨error', error, herror', herror, hsame⟩ | ⟨lowered, last, hok', hok⟩
    · rw [herror, herror']
      constructor <;> rintro _ ⟨⟩
      exact ⟨error', rfl, hsame⟩
    · rw [hok, hok']
      constructor <;> rintro _ ⟨⟩
      rfl

/-- Of the parentheses around and in a negated chain the canonical text keeps the one pair that is
called for. -/
theorem text_of_redundant_parentheses :
    ∃ q canon, Query.parse "NOT ((YOE>5 OR (SALARY<7)))" (some 4) = .ok q ∧
      scan "NOT (YOE > 5 OR SALARY < 7)".toList = .ok canon ∧ canon.length ≤ 14 ∧
      q.ReadFrom "NOT (YOE > 5 OR SALARY < 7)" (some 4) ∧
      Statement.ofSource ⟨.question, false⟩ "NOT (YOE > 5 OR SALARY < 7)" =
        .ok ⟨"SELECT resumes.* FROM resumes WHERE NOT (resumes.years_of_experience > ? OR " ++
          "resumes.current_salary < ?)", [.int 5, .int 7]⟩ := by
  have hparse : Query.parse "NOT ((YOE>5 OR (SALARY<7)))" (some 4) = .ok (.not (.logical .or
      (.comparison ⟨⟨"YOE", ⟨6, 9⟩⟩, .scalar .gt, .scalar ⟨.int 5, ⟨10, 11⟩⟩⟩)
      (.comparison ⟨⟨"SALARY", ⟨16, 22⟩⟩, .scalar .lt, .scalar ⟨.int 7, ⟨23, 24⟩⟩⟩))) := by
    decide +kernel
  have hstatement : Statement.ofSource ⟨.question, false⟩ "NOT ((YOE>5 OR (SALARY<7)))" =
      .ok ⟨"SELECT resumes.* FROM resumes WHERE NOT (resumes.years_of_experience > ? OR " ++
        "resumes.current_salary < ?)", [.int 5, .int 7]⟩ := by
    decide +kernel
  have hcount : (scan "NOT ((YOE>5 OR (SALARY<7)))".toList).map List.length = .ok 14 := by
    decide +kernel
  obtain ⟨tokens, htokens, -⟩ := parse_eq_ok_iff.mp hparse
  rw [htokens] at hcount
  have hlength : tokens.length = 14 := Except.ok.inj hcount
  obtain ⟨canon, hcanon, hcheapest, hread, hsame⟩ := text_cheapest_and_interchangeable hparse
  obtain ⟨hle, -⟩ := hcheapest _ _ tokens ⟨_, hparse, rfl⟩ htokens
  exact ⟨_, canon, hparse, hcanon, hlength ▸ hle, hread, (hsame _).1 _ hstatement⟩

end ResumeFilter
