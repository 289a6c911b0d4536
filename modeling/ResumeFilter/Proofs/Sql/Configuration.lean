import ResumeFilter.Proofs.Sql.Accumulating
import ResumeFilter.Sql.Session

/-!
# What a configuration changes

A configuration only says how a select is spelled. Whatever is done to builders that differ in their
configuration alone, the answers are the same, and so are joins, filters and conditions
(`run_withConfig`). Of the texts of two such builders one is the other without its double quotes
(`unquoted`), or with a question mark for each numbered placeholder (`anonymous`).

Both are instances of `Respelling`: a change of text that goes through a select piece by piece. For
numbered placeholders this is so because none of them has a digit behind it.

The main statement is `run_of_configs`.
-/

namespace ResumeFilter.Sql

/-! ## Changing the spelling of a text -/

/-- Whether a piece is a word or a name without double quotes and placeholders. -/
def Piece.isBare : Piece → Bool
  | .word text => '"' ∉ text.toList ∧ IsPlain text.toList
  | .name text => '"' ∉ text.toList ∧ IsPlain text.toList
  | .param _ => false

/-- Whether a change of text turns the spelling of pieces in one configuration into that in another
one, piece by piece. -/
structure Respelling (f : List Char → List Char) (config config' : Config) : Prop where
  nil : f [] = []
  bare : ∀ (piece : Piece) (rest : List Char), piece.isBare →
    f ((piece.text config).toList ++ rest) = (piece.text config').toList ++ f rest
  param : ∀ (index : Nat) (rest : List Char), EndsWord rest →
    f (((Piece.param index).text config).toList ++ rest) =
      ((Piece.param index).text config').toList ++ f rest

/-- The columns of fields are bare. -/
theorem isBare_columnPieces {column : Column} (h : ∃ field : Field, field.column = column) :
    (columnPieces column).all Piece.isBare := by
  obtain ⟨field, rfl⟩ := h
  cases field <;> decide

/-- No join has double quotes or placeholders. -/
theorem isBare_join (join : Join) : (join.steps.flatMap joinPieces).all Piece.isBare := by
  cases join <;> decide

/-- The front of a select is bare. -/
theorem Select.isBare_frontPieces (joins : List Join) :
    (frontPieces joins).all Piece.isBare := by
  have hjoins : ((joins.flatMap Join.steps).flatMap joinPieces).all Piece.isBare := by
    rw [List.flatMap_assoc, List.all_flatMap, List.all_eq_true]
    exact fun join _ => isBare_join join
  rw [frontPieces, List.all_append, hjoins]
  decide

/-- Whether a change of text turns the spelling of these pieces in one configuration into that in
another one. -/
def Respells (f : List Char → List Char) (config config' : Config) (pieces : List Piece) : Prop :=
  f (spell config pieces).toList = (spell config' pieces).toList

namespace Respelling

variable {f : List Char → List Char} {config config' : Config} {rest : List Piece}

/-- A bare piece may stand in front. -/
theorem cons (h : Respelling f config config') {piece : Piece} (hpiece : piece.isBare)
    (hrest : Respells f config config' rest) : Respells f config config' (piece :: rest) := by
  rw [Respells, toList_spell_cons, toList_spell_cons, h.bare piece _ hpiece, hrest]

/-- Bare pieces may stand in front. -/
theorem append (h : Respelling f config config') {pieces : List Piece}
    (hpieces : pieces.all Piece.isBare) (hrest : Respells f config config' rest) :
    Respells f config config' (pieces ++ rest) := by
  induction pieces with
  | nil => exact hrest
  | cons piece pieces ih =>
    rw [List.all_cons, Bool.and_eq_true] at hpieces
    exact h.cons hpieces.1 (ih hpieces.2)

/-- A parameter may stand in front of what ends it. -/
theorem consParam (h : Respelling f config config') (index : Nat)
    (hends : EndsWord (spell config rest).toList) (hrest : Respells f config config' rest) :
    Respells f config config' (.param index :: rest) := by
  rw [Respells, toList_spell_cons, toList_spell_cons, h.param index _ hends, hrest]

/-- More parameters of a list may stand in front. -/
theorem moreParams (h : Respelling f config config') (params : List Nat)
    (hrest : Respells f config config' rest) :
    Respells f config config'
      ((params.flatMap fun param => [Piece.word ", ", .param param]) ++ .word ")" :: rest) := by
  induction params with
  | nil => exact h.cons (by decide) hrest
  | cons param params ih => exact h.cons (by decide) (h.consParam param (endsWord_more _ _) ih)

/-- A membership test may stand in front. -/
theorem isIn (h : Respelling f config config') {column : Column}
    (hcolumn : ∃ field : Field, field.column = column) (params : List Nat)
    (hrest : Respells f config config' rest) :
    Respells f config config' (isInPieces column params ++ rest) := by
  cases params with
  | nil => exact h.cons (by decide) hrest
  | cons first others =>
    rw [isInPieces_cons_append]
    exact h.append (isBare_columnPieces hcolumn)
      (h.cons (by decide) (h.consParam first (endsWord_more _ _) (h.moreParams others hrest)))

/-- What may stand in front may do so in parentheses. -/
theorem grouped (h : Respelling f config config') {pieces : List Piece → List Piece}
    (hpieces : ∀ rest, EndsWord (spell config rest).toList → Respells f config config' rest →
      Respells f config config' (pieces rest))
    (parentheses : Bool) (hends : EndsWord (spell config rest).toList)
    (hrest : Respells f config config' rest) :
    Respells f config config'
      (if parentheses then .word "(" :: pieces (.word ")" :: rest) else pieces rest) := by
  cases parentheses with
  | false => exact hpieces rest hends hrest
  | true =>
    have hends' : EndsWord (spell config (.word ")" :: rest)).toList :=
      endsWord_spell config rest (by decide)
    exact h.cons (by decide) (hpieces _ hends' (h.cons (by decide) hrest))

/-- A condition over columns of the catalog may stand in front of what ends it. -/
theorem piecesThen (h : Respelling f config config') {c : Condition} (hc : c.InCatalog)
    (hends : EndsWord (spell config rest).toList) (hrest : Respells f config config' rest) :
    Respells f config config' (c.piecesThen rest) := by
  induction c generalizing rest with
  | compare column op param =>
    have hop : (Piece.word (" " ++ scalarOpText op ++ " ")).isBare := by cases op <;> decide
    rw [Condition.piecesThen, comparePieces, List.append_assoc]
    exact h.append (isBare_columnPieces hc) (h.cons hop (h.consParam param hends hrest))
  | isIn column params => exact h.isIn hc params hrest
  | not inner ih =>
    have hends' : EndsWord (spell config (.word ")" :: rest)).toList :=
      endsWord_spell config rest (by decide)
    exact h.cons (by decide) (ih hc hends' (h.cons (by decide) hrest))
  | combine op left right ihleft ihright =>
    -- A parameter at the end of the left side has the junction or a parenthesis behind it.
    have hjunction : (Piece.word (" " ++ logicalOpText op ++ " ")).isBare := by
      cases op <;> decide
    -- The text behind a part comes first: for the left side that is the right side.
    have hright := h.grouped (fun _ => ihright hc.2) right.junction?.isSome hends hrest
    exact h.grouped (fun _ => ihleft hc.1) (left.junction?.any (· ≠ op))
      (endsWord_junction config op _) (h.cons hjunction hright)

/-- The text of a condition over columns of the catalog changes its spelling. -/
theorem text_condition (h : Respelling f config config') {c : Condition} (hc : c.InCatalog) :
    f (c.text config).toList = (c.text config').toList :=
  have hpieces : Respells f config config' (c.piecesThen []) := h.piecesThen hc endsWord_nil h.nil
  hpieces

/-- The text of a select over columns of the catalog changes its spelling. -/
theorem text_select (h : Respelling f config config') (joins : List Join)
    {filter : Option Condition} (hfilter : ∀ c ∈ filter, c.InCatalog) :
    f (Select.text config ⟨joins.flatMap Join.steps, filter⟩).toList =
      (Select.text config' ⟨joins.flatMap Join.steps, filter⟩).toList := by
  refine h.append (Select.isBare_frontPieces joins) ?_
  cases filter with
  | none => exact h.nil
  | some c => exact h.cons (by decide) (h.text_condition (hfilter c rfl))

end Respelling

/-! ## Names without quotes -/

/-- A text without its double quotes. -/
def unquoted (cs : List Char) : List Char := cs.filter (· ≠ '"')

/-- A text without double quotes stays as it is. -/
theorem unquoted_append_of_not_mem {cs : List Char} (h : '"' ∉ cs) (rest : List Char) :
    unquoted (cs ++ rest) = cs ++ unquoted rest := by
  have hcs : cs.filter (· ≠ '"') = cs :=
    List.filter_eq_self.mpr fun _ hc => decide_eq_true fun heq => h (heq ▸ hc)
  rw [unquoted, List.filter_append, hcs, unquoted]

/-- Placeholders have no double quotes. -/
theorem not_mem_placeholder (config : Config) (index : Nat) :
    '"' ∉ placeholder config index := by
  rw [placeholder]
  cases config.placeholder with
  | question =>
    have hmark : '"' ∉ ['?'] := by decide
    exact hmark
  | dollar =>
    simp only [toList_toString, List.mem_cons, not_or]
    exact ⟨by decide, fun hmem => absurd (Numeral.isDigit_of_mem_digits hmem) (by decide)⟩

/-- Double quotes are all that quoted names have more than bare ones. -/
theorem respelling_unquoted (placeholder : Placeholder) :
    Respelling unquoted ⟨placeholder, true⟩ ⟨placeholder, false⟩ where
  nil := rfl
  bare piece rest hpiece := by
    cases piece with
    | word text => exact unquoted_append_of_not_mem (of_decide_eq_true hpiece).1 rest
    | name text =>
      have htext := unquoted_append_of_not_mem (of_decide_eq_true hpiece).1
      have hquote : ∀ cs, unquoted ("\"".toList ++ cs) = unquoted cs := fun _ => rfl
      simp only [Piece.text, if_true, Bool.false_eq_true, if_false, String.toList_append,
        List.append_assoc, hquote, htext]
    | param index => cases hpiece
  param index rest _ := by
    rw [toList_text_param, toList_text_param,
      unquoted_append_of_not_mem (not_mem_placeholder _ index)]
    rfl

/-! ## Placeholders without numbers -/

/-- A text with a question mark for each dollar sign that has digits behind it, and for them. -/
def anonymous : List Char → List Char
  | [] => []
  | c :: cs =>
    if c = '$' ∧ cs.head?.any Char.isDigit then '?' :: anonymous (cs.dropWhile Char.isDigit)
    else c :: anonymous cs
termination_by cs => cs.length
decreasing_by
  · exact Nat.lt_succ_of_le (List.length_dropWhile_le _ _)
  · exact Nat.lt_succ_self _

/-- A text without placeholders stays as it is. -/
theorem anonymous_append_of_isPlain {cs : List Char} (h : IsPlain cs) (rest : List Char) :
    anonymous (cs ++ rest) = cs ++ anonymous rest := by
  induction cs with
  | nil => rfl
  | cons c cs ih =>
    simp only [IsPlain, List.mem_cons, not_or] at h
    obtain ⟨⟨-, hplain⟩, hdollar, hplain'⟩ := h
    rw [List.cons_append, anonymous, if_neg fun hc => hdollar hc.1.symm, ih ⟨hplain, hplain'⟩,
      List.cons_append]

/-- A numbered placeholder becomes a question mark if no digit comes behind it. -/
theorem anonymous_number (n : Nat) {cs : List Char} (hends : EndsWord cs) :
    anonymous ('$' :: (Binary64.digits n ++ cs)) = '?' :: anonymous cs := by
  obtain ⟨digit, others, hdigits⟩ := List.exists_cons_of_ne_nil (Numeral.digits_ne_nil n)
  have hdigit : digit.isDigit :=
    Numeral.isDigit_of_mem_digits (n := n) (hdigits ▸ List.mem_cons_self)
  have hhead : (Binary64.digits n ++ cs).head?.any Char.isDigit := by
    rw [hdigits, List.cons_append, List.head?_cons, Option.any_some, hdigit]
  rw [anonymous, if_pos ⟨rfl, hhead⟩, (takeWhile_digits_append n hends).2]

/-- Numbers are all that numbered placeholders have more than question marks. -/
theorem respelling_anonymous (quoteNames : Bool) :
    Respelling anonymous ⟨.dollar, quoteNames⟩ ⟨.question, quoteNames⟩ where
  nil := by rw [anonymous]
  bare piece rest hpiece := by
    cases piece with
    | word text => exact anonymous_append_of_isPlain (of_decide_eq_true hpiece).2 rest
    | name text =>
      have hplain : (Piece.name text).isPlain :=
        decide_eq_true (of_decide_eq_true hpiece).2
      exact anonymous_append_of_isPlain (Piece.isPlain_text hplain _) rest
    | param index => cases hpiece
  param index rest hends := by
    rw [toList_text_param, toList_text_param, placeholder, placeholder]
    simp only [toList_toString, List.cons_append, List.nil_append]
    exact anonymous_number _ hends

/-! ## Sessions -/

/-- A builder with another configuration. -/
def Builder.withConfig (config : Config) (builder : Builder) : Builder := { builder with config }

/-- Declaring a join does the same under every configuration. -/
theorem Builder.join_withConfig (join : Join) (config : Config) (builder : Builder) :
    (builder.withConfig config).join join = (builder.join join).withConfig config := by
  by_cases hmem : join ∈ builder.joins <;> simp [Builder.join, withConfig, hmem]

/-- Declaring joins does the same under every configuration. -/
theorem Builder.joinAll_withConfig (joins : List Join) (config : Config) (builder : Builder) :
    (builder.withConfig config).joinAll joins = (builder.joinAll joins).withConfig config := by
  induction joins using List.reverseRecOn with
  | nil => rfl
  | append_singleton joins join ih =>
    rw [joinAll_concat, joinAll_concat, ih, join_withConfig]

namespace Session

/-- A session with another configuration. -/
def withConfig (config : Config) (session : Session) : Session :=
  ⟨session.builder.withConfig config, session.stack⟩

/-- Whether the conditions of a session are over columns of the catalog. -/
structure InCatalog (session : Session) : Prop where
  stack : ∀ c ∈ session.stack, c.InCatalog
  filter : ∀ c ∈ session.builder.filter, c.InCatalog

/-- The text of the select of a session, and those of the conditions on its stack. -/
def texts (session : Session) : List (List Char) :=
  session.builder.render.toList ::
    session.stack.map fun c => (c.text session.builder.config).toList

/-- Every action does the same under every configuration. -/
theorem act_withConfig (session : Session) (config : Config) (action : Action) :
    (session.withConfig config).act action =
      ((session.act action).1, (session.act action).2.withConfig config) := by
  obtain ⟨builder, stack⟩ := session
  cases action with
  | join join => simp only [act, withConfig, Builder.join_withConfig]
  | compare op field param => rfl
  | isIn field params => rfl
  | combine op => rcases stack with _ | ⟨_, _ | _⟩ <;> rfl
  | negate times => cases stack <;> rfl
  | duplicate => cases stack <;> rfl
  | filter => cases stack <;> rfl
  | query source =>
    simp only [act, withConfig, Builder.addQuery_eq_lowerText]
    rcases lowerText_cases (source, some Parser.defaultDepthLimit) with
      ⟨error, h⟩ | ⟨joins, bound, h⟩
    · rw [h, h]
    · rw [h, h, Builder.joinAll_withConfig]
      rfl

/-- Whatever is done, a configuration changes neither the answers nor what is built. -/
theorem run_withConfig (session : Session) (config : Config) (actions : List Action) :
    (session.withConfig config).run actions =
      (session.run actions).map fun step => (step.1, step.2.withConfig config) := by
  induction actions generalizing session with
  | nil => rfl
  | cons action actions ih => rw [run, run, List.map_cons, act_withConfig, ih]

/-- A condition that is negated stays over columns of the catalog. -/
theorem inCatalog_negated {c : Condition} (h : c.InCatalog) (times : Nat) :
    (negated times c).InCatalog := by
  induction times generalizing c with
  | zero => exact h
  | succ times ih => exact ih h

/-- One more condition over columns of the catalog keeps a filter over them. -/
theorem inCatalog_addFilter {builder : Builder} (h : ∀ c ∈ builder.filter, c.InCatalog)
    {condition : Condition} (hcondition : condition.InCatalog) :
    ∀ c ∈ (builder.addFilter condition).filter, c.InCatalog := by
  cases hfilter : builder.filter with
  | none =>
    rw [filter_addFilter_of_none hfilter]
    rintro c ⟨⟩
    exact hcondition
  | some before =>
    rw [Builder.filter_addFilter, hfilter]
    rintro c ⟨⟩
    exact ⟨h before hfilter, hcondition⟩

/-- Every action keeps the conditions over columns of the catalog. -/
theorem InCatalog.act {session : Session} (h : session.InCatalog) (action : Action) :
    (session.act action).2.InCatalog := by
  obtain ⟨builder, stack⟩ := session
  obtain ⟨hstack, hfilter⟩ := h
  cases action with
  | join join => exact ⟨hstack, (builder.config_and_filter_join join).2 ▸ hfilter⟩
  | compare op field param => exact ⟨List.forall_mem_cons.mpr ⟨⟨field, rfl⟩, hstack⟩, hfilter⟩
  | isIn field params => exact ⟨List.forall_mem_cons.mpr ⟨⟨field, rfl⟩, hstack⟩, hfilter⟩
  | combine op =>
    rcases stack with _ | ⟨right, _ | ⟨left, rest⟩⟩
    · exact ⟨hstack, hfilter⟩
    · exact ⟨hstack, hfilter⟩
    · rw [List.forall_mem_cons, List.forall_mem_cons] at hstack
      exact ⟨List.forall_mem_cons.mpr ⟨⟨hstack.2.1, hstack.1⟩, hstack.2.2⟩, hfilter⟩
  | negate times =>
    cases stack with
    | nil => exact ⟨hstack, hfilter⟩
    | cons top rest =>
      rw [List.forall_mem_cons] at hstack
      exact ⟨List.forall_mem_cons.mpr ⟨inCatalog_negated hstack.1 times, hstack.2⟩, hfilter⟩
  | duplicate =>
    cases stack with
    | nil => exact ⟨hstack, hfilter⟩
    | cons top rest =>
      exact ⟨List.forall_mem_cons.mpr ⟨hstack top List.mem_cons_self, hstack⟩, hfilter⟩
  | filter =>
    cases stack with
    | nil => exact ⟨hstack, hfilter⟩
    | cons top rest =>
      rw [List.forall_mem_cons] at hstack
      exact ⟨hstack.2, inCatalog_addFilter hfilter hstack.1⟩
  | query source =>
    simp only [Session.act, Builder.addQuery_eq_lowerText]
    rcases lowerText_cases (source, some Parser.defaultDepthLimit) with
      ⟨error, h⟩ | ⟨joins, bound, h⟩
    · rw [h]
      exact ⟨hstack, hfilter⟩
    · rw [h]
      refine ⟨hstack, inCatalog_addFilter ?_ bound.inCatalog⟩
      rw [(builder.config_and_filter_joinAll joins).2]
      exact hfilter

/-- Everything that a session leads to keeps the conditions over columns of the catalog. -/
theorem InCatalog.run {session : Session} (h : session.InCatalog) (actions : List Action) :
    ∀ step ∈ session.run actions, step.2.InCatalog := by
  induction actions generalizing session with
  | nil => exact List.forall_mem_nil _
  | cons action actions ih =>
    rw [Session.run, List.forall_mem_cons]
    exact ⟨h.act action, ih (h.act action)⟩

/-- The texts of a session over columns of the catalog change their spelling. -/
theorem InCatalog.map_texts {session : Session} (h : session.InCatalog)
    {f : List Char → List Char} {config config' : Config} (hf : Respelling f config config') :
    (session.withConfig config).texts.map f = (session.withConfig config').texts := by
  have hrender : ∀ config, (session.withConfig config).builder.render =
      Select.text config ⟨session.builder.joins.flatMap Join.steps, session.builder.filter⟩ := by
    intro config
    rw [← session.builder.select_eq]
    rfl
  simp only [texts, List.map_cons, List.map_map, hrender]
  congr 1
  · exact hf.text_select session.builder.joins h.filter
  · exact List.map_congr_left fun c hc => hf.text_condition (h.stack c hc)

end Session

/-- The same actions on builders that differ in their configuration alone have the same answers and
build the same joins, filters and conditions, whatever conditions over columns of the catalog there
are to start with. Each text with quoted names is the one with bare names and double quotes, and
each text with numbered placeholders is the one with question marks and numbers. -/
theorem run_of_configs (stack : List Condition) (hstack : ∀ c ∈ stack, c.InCatalog)
    (actions : List Action) :
    let run := fun config => Session.run ⟨Builder.empty config, stack⟩ actions
    (∀ config config', List.Forall₂ (fun a b => a.1 = b.1 ∧ a.2.stack = b.2.stack ∧
      a.2.builder.joins = b.2.builder.joins ∧ a.2.builder.filter = b.2.builder.filter)
      (run config) (run config')) ∧
    (∀ placeholder, List.Forall₂ (fun a b => a.2.texts.map unquoted = b.2.texts)
      (run ⟨placeholder, true⟩) (run ⟨placeholder, false⟩)) ∧
    ∀ quoteNames, List.Forall₂ (fun a b => a.2.texts.map anonymous = b.2.texts)
      (run ⟨.dollar, quoteNames⟩) (run ⟨.question, quoteNames⟩) := by
  intro run
  -- One run serves for all: the others are the same steps with another configuration.
  let steps := run ⟨.question, true⟩
  have hrun : ∀ config, run config =
      steps.map fun step => (step.1, step.2.withConfig config) := fun config =>
    Session.run_withConfig ⟨Builder.empty ⟨.question, true⟩, stack⟩ config actions
  have hcatalog : ∀ step ∈ steps, step.2.InCatalog :=
    Session.InCatalog.run ⟨hstack, by rintro c ⟨⟩⟩ actions
  have hpairs : ∀ {R : Session.Answer × Session → Session.Answer × Session → Prop}
      {config config' : Config},
      (∀ step ∈ steps, R (step.1, step.2.withConfig config) (step.1, step.2.withConfig config')) →
      List.Forall₂ R (run config) (run config') := fun h => by
    rw [hrun, hrun, List.forall₂_map_left_iff, List.forall₂_map_right_iff, List.forall₂_same]
    exact h
  exact ⟨fun _ _ => hpairs fun _ _ => ⟨rfl, rfl, rfl, rfl⟩,
    fun placeholder => hpairs fun step hstep =>
      (hcatalog step hstep).map_texts (respelling_unquoted placeholder),
    fun quoteNames => hpairs fun step hstep =>
      (hcatalog step hstep).map_texts (respelling_anonymous quoteNames)⟩

/-- Numbers of two digits, an empty set, an underflow and texts that fail change nothing. -/
theorem run_of_two_digits :
    let stack := [Condition.isIn ⟨.skills, "name"⟩ [9, 10]]
    let actions : List Action := [.join .skills, .negate 1, .filter, .filter, .isIn .location [],
      .compare .gt .salary 0, .combine .or, .filter, .query "YOE >", .query "NOPE = 1",
      .query "EDUCATION = '\"$1'"]
    let run := fun config => Session.run ⟨Builder.empty config, stack⟩ actions
    (∀ c ∈ stack, c.InCatalog) ∧
      (run ⟨.dollar, true⟩).getLast?.map (fun step => step.2.builder.render) =
        some ("SELECT \"resumes\".* FROM \"resumes\" LEFT JOIN \"resume_skills\" ON " ++
          "\"resumes\".\"id\"=\"resume_skills\".\"resume_id\" LEFT JOIN \"skills\" ON " ++
          "\"resume_skills\".\"skill_id\"=\"skills\".\"id\" LEFT JOIN \"education\" ON " ++
          "\"resumes\".\"id\"=\"education\".\"resume_id\" WHERE " ++
          "NOT (\"skills\".\"name\" IN ($10, $11)) AND " ++
          "(1 = 0 OR \"resumes\".\"current_salary\" > $1) AND \"education\".\"degree\" = $1") ∧
      List.Forall₂ (fun a b => a.2.texts.map anonymous = b.2.texts)
        (run ⟨.dollar, true⟩) (run ⟨.question, true⟩) ∧
      List.Forall₂ (fun a b => a.2.texts.map unquoted = b.2.texts)
        (run ⟨.dollar, true⟩) (run ⟨.dollar, false⟩) := by
  intro stack actions run
  have hstack : ∀ c ∈ stack, c.InCatalog := by
    rw [List.forall_mem_singleton]
    exact ⟨.skills, rfl⟩
  obtain ⟨-, hquotes, hnumbers⟩ := run_of_configs stack hstack actions
  exact ⟨hstack, by decide +kernel, hnumbers true, hquotes .dollar⟩

end ResumeFilter.Sql
