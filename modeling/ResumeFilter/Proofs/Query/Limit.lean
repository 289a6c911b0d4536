import ResumeFilter.Proofs.Query.Nesting
import ResumeFilter.Proofs.Query.Parsing

/-!
# The limit on nesting

A limit on nesting does nothing but cut reading off, at the first NOT or parenthesis that would
nest deeper (`ofTokens_limited`).

The proof runs every production with and without the limit. The counter of the parser is the number
of openings that the tokens tell of, so the two runs are the same up to the first token that goes
beyond the limit, and behind this token the run with the limit is an error and stays one
(`Limited`).
-/

namespace ResumeFilter

open Opening

namespace Parser

/-! ## Productions in sequence -/

/-- Goes on with what was read, unless reading failed. -/
def andThen {α β : Type} (outcome : Outcome α) (more : α → Cursor → Outcome β) : Outcome β :=
  match outcome with
  | (.error error, next) => (.error error, next)
  | (.ok a, next) => more a next

/-- An expression is a condition and a chain behind it. -/
theorem expression_eq_andThen (condition : Cursor → Outcome Query) (steps : Nat) (cursor : Cursor) :
    expression condition steps cursor = andThen (condition cursor) (chain condition steps) := by
  unfold expression
  rcases condition cursor with ⟨_ | _, _⟩ <;> rfl

/-- Behind a junction a chain is a condition and the rest of the chain. -/
theorem chain_eq_andThen (condition : Cursor → Outcome Query) (steps : Nat) (left : Query)
    {token : Token} {op : LogicalOp} (hop : token.kind.logicalOp? = some op) (rest : List Token)
    (depth : Nat) :
    chain condition (steps + 1) left ⟨token :: rest, depth⟩ =
      andThen (condition ⟨rest, depth⟩)
        fun right => chain condition steps (.logical op left right) := by
  simp only [chain, hop]
  rcases condition ⟨rest, depth⟩ with ⟨_ | _, _⟩ <;> rfl

/-- A negation is a condition one level deeper. -/
theorem condition_of_not (setting : Setting) (fuel : Nat) {token : Token}
    (hkind : token.kind = .not) (rest : List Token) (depth : Nat) :
    condition setting (fuel + 1) ⟨token :: rest, depth⟩ =
      andThen (nested setting token (condition setting fuel) rest ⟨token :: rest, depth⟩)
        fun inner next => (.ok (.not inner), next) := by
  simp only [condition, hkind]
  rcases nested setting token (condition setting fuel) rest _ with ⟨_ | _, _⟩ <;> rfl

/-- A group is an expression one level deeper and the end of the group. -/
theorem condition_of_parenOpen (setting : Setting) (fuel : Nat) {token : Token}
    (hkind : token.kind = .parenOpen) (rest : List Token) (depth : Nat) :
    condition setting (fuel + 1) ⟨token :: rest, depth⟩ =
      andThen (nested setting token (expression (condition setting fuel) fuel) rest
        ⟨token :: rest, depth⟩) (groupEnd setting token) := by
  simp only [condition, hkind]
  rcases nested setting token (expression (condition setting fuel) fuel) rest _ with ⟨_ | _, _⟩ <;>
    rfl

/-- A field name starts a comparison. -/
theorem condition_of_identifier (setting : Setting) (fuel : Nat) {token : Token}
    (hkind : token.kind = .identifier) (rest : List Token) (depth : Nat) :
    condition setting (fuel + 1) ⟨token :: rest, depth⟩ =
      comparison setting token ⟨rest, depth⟩ := by
  simp only [condition, hkind]

/-- Nothing else starts a condition. -/
theorem condition_of_other (setting : Setting) (fuel : Nat) {token : Token}
    (hnot : token.kind ≠ .not) (hopening : token.kind ≠ .parenOpen)
    (hname : token.kind ≠ .identifier) (rest : List Token) (depth : Nat) :
    condition setting (fuel + 1) ⟨token :: rest, depth⟩ =
      expected setting .condition ⟨token :: rest, depth⟩ := by
  simp only [condition]

/-! ## Reading with and without a limit -/

/-- What reading comes to with a limit, `bounded`, if without one it takes some tokens and comes to
`free`: the same as long as the tokens stay within the limit, and otherwise an error at the first
one that does not. If reading succeeds without a limit, then it leaves the depth as it was, and its
tokens turn any openings into what `left` says, once the condition at the end is complete. -/
structure Limited {α : Type} (limit : Nat) (opened : List Opening)
    (left : List Opening → List Opening) (cursor : Cursor) (taken : List Token)
    (free bounded : Outcome α) : Prop where
  split : cursor.rest = taken ++ free.2.rest
  depth_eq : ∀ a, free.1 = .ok a → free.2.depth = cursor.depth
  settle_eq : ∀ a, free.1 = .ok a → ∀ opened', settle (behind opened' taken) = left opened'
  same : beyond? limit opened taken = none → bounded = free
  cut : ∀ token, beyond? limit opened taken = some token →
    bounded.1 = .error (.tooDeep limit token.span)

variable {limit : Nat} {opened : List Opening} {left : List Opening → List Opening}

/-- Reading that takes nothing comes to the same with and without a limit. -/
theorem Limited.stop {α : Type} {cursor : Cursor} {result : Except ParseError α}
    (h : ∀ a, result = .ok a → ∀ opened', settle opened' = left opened') :
    Limited limit opened left cursor [] (result, cursor) (result, cursor) where
  split := rfl
  depth_eq _ _ := rfl
  settle_eq := h
  same _ := rfl
  cut _ h := absurd h nofun

/-- Asking for something else takes nothing. -/
theorem limited_expected {α : Type} (sourceLength : Nat) (expectation : Expectation)
    (cursor : Cursor) :
    Limited limit opened left cursor []
      (expected ⟨sourceLength, none⟩ expectation cursor : Outcome α)
      (expected ⟨sourceLength, some limit⟩ expectation cursor) := by
  unfold expected
  split
  · exact .stop nofun
  · exact .stop nofun

/-- What is read in sequence is limited if its parts are. -/
theorem Limited.andThen {α β : Type} {left' left'' : List Opening → List Opening} {cursor : Cursor}
    {taken : List Token} {free bounded : Outcome α} {more more' : α → Cursor → Outcome β}
    (h : Limited limit opened left cursor taken free bounded)
    (hmore : ∀ a, free.1 = .ok a → ∃ taken', Limited limit (behind opened taken) left' free.2 taken'
      (more a free.2) (more' a free.2))
    (hleft : ∀ opened', settle (behind opened' taken) = left opened' →
      left' (behind opened' taken) = left'' opened') :
    ∃ taken', Limited limit opened left'' cursor taken' (andThen free more)
      (Parser.andThen bounded more') := by
  obtain ⟨result, next⟩ := free
  obtain ⟨result', next'⟩ := bounded
  cases result with
  | error error =>
    refine ⟨taken, h.split, nofun, nofun, fun hnone => ?_, fun token htoken => ?_⟩
    · obtain ⟨rfl, rfl⟩ := Prod.mk.inj (h.same hnone)
      rfl
    · obtain rfl : result' = _ := h.cut token htoken
      rfl
  | ok a =>
    obtain ⟨taken', h'⟩ := hmore a rfl
    refine ⟨taken ++ taken', ?_, ?_, ?_, fun hnone => ?_, fun token htoken => ?_⟩
    · rw [List.append_assoc]
      exact h.split.trans (congrArg (taken ++ ·) h'.split)
    · exact fun b hb => (h'.depth_eq b hb).trans (h.depth_eq a rfl)
    · intro b hb opened'
      rw [behind_append, h'.settle_eq b hb]
      exact hleft opened' (h.settle_eq a rfl opened')
    · rw [beyond?_append, Option.or_eq_none_iff] at hnone
      obtain ⟨rfl, rfl⟩ := Prod.mk.inj (h.same hnone.1)
      exact h'.same hnone.2
    · rw [beyond?_append, Option.or_eq_some_iff] at htoken
      rcases htoken with htoken | ⟨hnone, htoken⟩
      · obtain rfl : result' = _ := h.cut token htoken
        rfl
      · obtain ⟨rfl, rfl⟩ := Prod.mk.inj (h.same hnone)
        exact h'.cut token htoken

/-- What is read behind a token that opens nothing is limited if it is limited behind what is open
there. -/
theorem Limited.cons {α : Type} {left' : List Opening → List Opening} {token : Token}
    {rest taken : List Token} {depth : Nat} {free bounded : Outcome α}
    (h : Limited limit (step opened token) left ⟨rest, depth⟩ taken free bounded)
    (hopens : token.opens = false) (hleft : ∀ opened', left (step opened' token) = left' opened') :
    Limited limit opened left' ⟨token :: rest, depth⟩ (token :: taken) free bounded := by
  have hbeyond : beyond? limit opened (token :: taken) = beyond? limit (step opened token) taken :=
    if_neg (by simp [hopens])
  refine ⟨congrArg (token :: ·) h.split, h.depth_eq, fun a ha opened' => ?_, ?_, ?_⟩
  · rw [behind_cons, h.settle_eq a ha, hleft]
  · rw [hbeyond]
    exact h.same
  · rw [hbeyond]
    exact h.cut

/-- Reading one level deeper is cut off exactly where the token that opens the level goes beyond the
limit. -/
theorem limited_nested (sourceLength : Nat) {left' : List Opening → List Opening} {token : Token}
    {rest taken : List Token} {depth : Nat} {inner inner' : Cursor → Outcome Query}
    (h : Limited limit (step opened token) left ⟨rest, depth + 1⟩ taken (inner ⟨rest, depth + 1⟩)
      (inner' ⟨rest, depth + 1⟩))
    (hopens : token.opens) (hdepth : depth = opened.length)
    (hleft : ∀ opened', left (step opened' token) = left' opened') :
    Limited limit opened left' ⟨token :: rest, depth⟩ (token :: taken)
      (nested ⟨sourceLength, none⟩ token inner rest ⟨token :: rest, depth⟩)
      (nested ⟨sourceLength, some limit⟩ token inner' rest ⟨token :: rest, depth⟩) := by
  have hfree : nested ⟨sourceLength, none⟩ token inner rest ⟨token :: rest, depth⟩ =
      ((inner ⟨rest, depth + 1⟩).1,
        { (inner ⟨rest, depth + 1⟩).2 with depth := (inner ⟨rest, depth + 1⟩).2.depth - 1 }) := rfl
  have hdepth_eq : ∀ a, (inner ⟨rest, depth + 1⟩).1 = .ok a →
      (inner ⟨rest, depth + 1⟩).2.depth - 1 = depth := fun a ha => by
    rw [h.depth_eq a ha, Nat.add_sub_cancel]
  have hsettle_eq : ∀ a, (inner ⟨rest, depth + 1⟩).1 = .ok a → ∀ opened',
      settle (behind opened' (token :: taken)) = left' opened' := fun a ha opened' => by
    rw [behind_cons, h.settle_eq a ha, hleft]
  rw [hfree]
  by_cases hlimit : limit ≤ opened.length
  · have hbeyond : beyond? limit opened (token :: taken) = some token :=
      if_pos (by simp [hopens, hlimit])
    have hbounded : nested ⟨sourceLength, some limit⟩ token inner' rest ⟨token :: rest, depth⟩ =
        (.error (.tooDeep limit token.span), ⟨token :: rest, depth⟩) := by
      simp only [nested, Option.filter_some, decide_eq_true (hdepth ▸ hlimit), if_true]
    refine ⟨congrArg (token :: ·) h.split, hdepth_eq, hsettle_eq, ?_, ?_⟩
    · rw [hbeyond]
      rintro ⟨⟩
    · rw [hbeyond, hbounded]
      rintro _ ⟨⟩
      rfl
  · have hbeyond : beyond? limit opened (token :: taken) =
        beyond? limit (step opened token) taken := if_neg (by simp [hlimit])
    have hbounded : nested ⟨sourceLength, some limit⟩ token inner' rest ⟨token :: rest, depth⟩ =
        ((inner' ⟨rest, depth + 1⟩).1, { (inner' ⟨rest, depth + 1⟩).2 with
          depth := (inner' ⟨rest, depth + 1⟩).2.depth - 1 }) := by
      simp only [nested, Option.filter_some, decide_eq_false (hdepth ▸ hlimit), if_false,
        Bool.false_eq_true]
    refine ⟨congrArg (token :: ·) h.split, hdepth_eq, hsettle_eq, ?_, ?_⟩
    · rw [hbeyond, hbounded]
      intro hnone
      rw [h.same hnone]
    · rw [hbeyond, hbounded]
      exact h.cut

/-! ## Comparisons -/

/-- The values of a set are read the same with and without a limit. -/
theorem setValues_eq_of_limit (sourceLength limit : Nat) (opening : Token) (depth : Nat)
    (tokens : List Token) (before : List Value) :
    setValues ⟨sourceLength, some limit⟩ opening depth tokens before =
      setValues ⟨sourceLength, none⟩ opening depth tokens before := by
  fun_induction setValues ⟨sourceLength, none⟩ opening depth tokens before with
  | case1 => rfl
  | case2 token rest before error hvalue => simp only [setValues, hvalue]
  | case3 token before value hvalue => simp only [setValues, hvalue]
  | case4 token before value hvalue next rest hnext => simp only [setValues, hvalue, if_pos hnext]
  | case5 token before value hvalue next rest hbrace hcomma ih =>
    simp only [setValues, hvalue, if_neg hbrace, if_pos hcomma, ih]
  | case6 token before value hvalue next rest hbrace hcomma =>
    simp only [setValues, hvalue, if_neg hbrace, if_neg hcomma]
    rfl

/-- A comparison is read the same with and without a limit. -/
theorem comparison_eq_of_limit (sourceLength limit : Nat) (field : Token) (cursor : Cursor) :
    comparison ⟨sourceLength, some limit⟩ field cursor =
      comparison ⟨sourceLength, none⟩ field cursor := by
  simp only [comparison, operand, setLiteral, setValues_eq_of_limit, expected]

/-- Whether reading has taken only neutral tokens. -/
def TakesNeutral {α : Type} (tokens : List Token) (depth : Nat) (outcome : Outcome α) : Prop :=
  (∃ taken, tokens = taken ++ outcome.2.rest ∧ ∀ token ∈ taken, token.IsNeutral) ∧
    outcome.2.depth = depth

/-- Reading that takes nothing takes only neutral tokens. -/
theorem TakesNeutral.stop {α : Type} (tokens : List Token) (depth : Nat)
    (result : Except ParseError α) : TakesNeutral tokens depth (result, ⟨tokens, depth⟩) :=
  ⟨⟨[], rfl, nofun⟩, rfl⟩

/-- Asking for something else takes only neutral tokens. -/
theorem TakesNeutral.expected {α : Type} (setting : Setting) (expectation : Expectation)
    (tokens : List Token) (depth : Nat) :
    TakesNeutral tokens depth
      (Parser.expected setting expectation ⟨tokens, depth⟩ : Outcome α) := by
  cases tokens with
  | nil => exact .stop ..
  | cons => exact .stop ..

/-- Reading may take one more neutral token in front. -/
theorem TakesNeutral.cons {α : Type} {token : Token} {tokens : List Token} {depth : Nat}
    {outcome : Outcome α} (htoken : token.IsNeutral) (h : TakesNeutral tokens depth outcome) :
    TakesNeutral (token :: tokens) depth outcome := by
  obtain ⟨⟨taken, rfl, hneutral⟩, hdepth⟩ := h
  exact ⟨⟨token :: taken, rfl, List.forall_mem_cons.mpr ⟨htoken, hneutral⟩⟩, hdepth⟩

/-- A token that has a value is neutral. -/
theorem isNeutral_of_value {token : Token} {expectation : Expectation} {value : Value}
    (h : token.value expectation = .ok value) : token.IsNeutral := by
  rw [Token.value] at h
  split at h
  next hscalar =>
    rcases Token.Kind.contains_scalars.mp hscalar with hkind | hkind | hkind <;>
      simp [Token.IsNeutral, hkind]
  next => cases h

/-- The values of a set and what stands between them are neutral. -/
theorem takesNeutral_setValues (setting : Setting) (opening : Token) (depth : Nat)
    (tokens : List Token) (before : List Value) :
    TakesNeutral tokens depth (setValues setting opening depth tokens before) := by
  fun_induction setValues setting opening depth tokens before with
  | case1 => exact .stop ..
  | case2 => exact .stop ..
  | case3 token before value hvalue => exact .cons (isNeutral_of_value hvalue) (.stop ..)
  | case4 token before value hvalue next rest hbrace =>
    exact .cons (isNeutral_of_value hvalue) (.cons (by simp [Token.IsNeutral, hbrace]) (.stop ..))
  | case5 token before value hvalue next rest _ hcomma ih =>
    exact .cons (isNeutral_of_value hvalue) (.cons (by simp [Token.IsNeutral, hcomma]) ih)
  | case6 token before value hvalue => exact .cons (isNeutral_of_value hvalue) (.expected ..)

/-- An operand is made up of neutral tokens. -/
theorem takesNeutral_operand (setting : Setting) (tokens : List Token) (depth : Nat) :
    TakesNeutral tokens depth (operand setting ⟨tokens, depth⟩) := by
  cases tokens with
  | nil => exact .expected ..
  | cons token rest =>
    simp only [operand]
    split_ifs with hbrace
    · refine .cons (by simp [Token.IsNeutral, hbrace]) ?_
      cases rest with
      | nil => exact takesNeutral_setValues setting token depth [] []
      | cons next rest =>
        simp only [setLiteral]
        split_ifs with hnext
        · exact .cons (by simp [Token.IsNeutral, hnext]) (.stop ..)
        · exact takesNeutral_setValues ..
    · split
      next => exact .stop ..
      next value hvalue => exact .cons (isNeutral_of_value hvalue) (.stop ..)

/-- The rest of a comparison is made up of neutral tokens. -/
theorem takesNeutral_comparison (setting : Setting) (field : Token) (tokens : List Token)
    (depth : Nat) : TakesNeutral tokens depth (comparison setting field ⟨tokens, depth⟩) := by
  cases tokens with
  | nil => exact .expected ..
  | cons token rest =>
    simp only [comparison]
    split
    next => exact .expected ..
    next op hop =>
      have htoken : token.IsNeutral := by
        cases hkind : token.kind <;> simp_all [Token.IsNeutral, Token.Kind.compareOp?]
      have hoperand := takesNeutral_operand setting rest depth
      split
      next error next hread =>
        rw [hread] at hoperand
        exact hoperand.cons htoken
      next o next hread =>
        rw [hread] at hoperand
        exact hoperand.cons htoken

/-- A comparison is limited: it opens nothing. -/
theorem limited_comparison (sourceLength limit : Nat) (opened : List Opening) (field : Token)
    (tokens : List Token) (depth : Nat) :
    ∃ taken, Limited limit opened settle ⟨tokens, depth⟩ taken
      (comparison ⟨sourceLength, none⟩ field ⟨tokens, depth⟩)
      (comparison ⟨sourceLength, some limit⟩ field ⟨tokens, depth⟩) := by
  obtain ⟨⟨taken, htaken, hneutral⟩, hdepth⟩ :=
    takesNeutral_comparison ⟨sourceLength, none⟩ field tokens depth
  have hbehind := behind_of_isNeutral hneutral limit
  rw [comparison_eq_of_limit]
  refine ⟨taken, htaken, fun _ _ => hdepth, fun _ _ opened' => ?_, fun _ => rfl, ?_⟩
  · rw [(hbehind opened').1]
  · rw [(hbehind opened).2]
    exact nofun

/-! ## Conditions and expressions -/

/-- Whether a production is limited wherever the parser counts the openings that there are. -/
def IsLimited (limit : Nat) (free bounded : Cursor → Outcome Query) : Prop :=
  ∀ (opened : List Opening) (cursor : Cursor), cursor.depth = opened.length →
    ∃ taken, Limited limit opened settle cursor taken (free cursor) (bounded cursor)

/-- A chain of limited conditions is limited: a junction completes the condition in front of it, so
the conditions all start with the same openings. -/
theorem limited_chain {limit : Nat} {free bounded : Cursor → Outcome Query}
    (h : IsLimited limit free bounded) (steps : Nat) (left : Query) (opened : List Opening)
    (cursor : Cursor) (hdepth : cursor.depth = (settle opened).length) :
    ∃ taken, Limited limit opened settle cursor taken (chain free steps left cursor)
      (chain bounded steps left cursor) := by
  induction steps generalizing left opened cursor with
  | zero => exact ⟨[], .stop fun _ _ _ => rfl⟩
  | succ steps ih =>
    obtain ⟨rest, depth⟩ := cursor
    cases rest with
    | nil => exact ⟨[], .stop fun _ _ _ => rfl⟩
    | cons token rest =>
      cases hop : token.kind.logicalOp? with
      | none =>
        simp only [chain, hop]
        exact ⟨[], .stop fun _ _ _ => rfl⟩
      | some op =>
        rw [chain_eq_andThen free steps left hop, chain_eq_andThen bounded steps left hop]
        have hstep := step_of_logicalOp? hop
        obtain ⟨taken, hcondition⟩ := h (settle opened) ⟨rest, depth⟩ hdepth
        obtain ⟨taken', hmore⟩ := hcondition.andThen (fun right hright => by
          have hsettle := hcondition.settle_eq right hright (settle opened)
          rw [settle_settle] at hsettle
          exact ih (.logical op left right) (behind (settle opened) taken) _
            ((hcondition.depth_eq right hright).trans (hdepth.trans (by rw [hsettle]))))
          fun opened' => id
        rw [← hstep] at hmore
        refine ⟨token :: taken', hmore.cons (opens_of_logicalOp? hop) fun opened' => ?_⟩
        rw [hstep, settle_settle]

/-- An expression of limited conditions is limited where no NOT waits for its condition. -/
theorem limited_expression {limit : Nat} {free bounded : Cursor → Outcome Query}
    (h : IsLimited limit free bounded) (steps : Nat) (opened : List Opening)
    (hopened : settle opened = opened) (cursor : Cursor) (hdepth : cursor.depth = opened.length) :
    ∃ taken, Limited limit opened settle cursor taken (expression free steps cursor)
      (expression bounded steps cursor) := by
  rw [expression_eq_andThen, expression_eq_andThen]
  obtain ⟨taken, hcondition⟩ := h opened cursor hdepth
  refine hcondition.andThen (fun first hfirst => ?_) fun opened' => id
  have hsettle := hcondition.settle_eq first hfirst opened
  rw [hopened] at hsettle
  exact limited_chain h steps first (behind opened taken) _
    ((hcondition.depth_eq first hfirst).trans (hdepth.trans (by rw [hsettle])))

/-- The end of a group is limited: it closes what the group opened. -/
theorem limited_groupEnd {limit sourceLength : Nat} {opening : Token} {inner : Query}
    (opened : List Opening) (cursor : Cursor) :
    ∃ taken, Limited limit opened (fun opened' => settle (settle opened').tail) cursor taken
      (groupEnd ⟨sourceLength, none⟩ opening inner cursor)
      (groupEnd ⟨sourceLength, some limit⟩ opening inner cursor) := by
  obtain ⟨rest, depth⟩ := cursor
  cases rest with
  | nil => exact ⟨[], limited_expected ..⟩
  | cons token rest =>
    by_cases hclosing : token.kind = .parenClose
    · simp only [groupEnd, if_pos hclosing]
      have hend : Limited limit (step opened token) settle ⟨rest, depth⟩ []
          ((.ok inner, ⟨rest, depth⟩) : Outcome Query) (.ok inner, ⟨rest, depth⟩) :=
        .stop fun _ _ _ => rfl
      refine ⟨[token], hend.cons (by simp [Token.opens, hclosing]) fun opened' => ?_⟩
      simp only [step, hclosing]
    · simp only [groupEnd, if_neg hclosing]
      exact ⟨[], limited_expected ..⟩

/-- Conditions are limited. -/
theorem limited_condition (limit sourceLength fuel : Nat) :
    IsLimited limit (condition ⟨sourceLength, none⟩ fuel)
      (condition ⟨sourceLength, some limit⟩ fuel) := by
  induction fuel with
  | zero => exact fun _ _ _ => ⟨[], limited_expected ..⟩
  | succ fuel ih =>
    rintro opened ⟨rest, depth⟩ hdepth
    cases rest with
    | nil => exact ⟨[], limited_expected ..⟩
    | cons token rest =>
      by_cases hnot : token.kind = .not
      · rw [condition_of_not _ _ hnot, condition_of_not _ _ hnot]
        have hstep : ∀ opened', step opened' token = .not :: opened' := fun _ => by
          simp only [step, hnot]
        obtain ⟨taken, hinner⟩ := ih (step opened token) ⟨rest, depth + 1⟩
          ((congrArg (· + 1) hdepth).trans (by rw [hstep]; rfl))
        have hleft : ∀ opened', settle (step opened' token) = settle opened' := fun opened' => by
          rw [hstep]
          rfl
        have hnested :=
          limited_nested sourceLength hinner (by simp [Token.opens, hnot]) hdepth hleft
        exact hnested.andThen (fun inner hread => ⟨[], .stop fun _ _ _ => rfl⟩) fun opened' => id
      by_cases hopening : token.kind = .parenOpen
      · rw [condition_of_parenOpen _ _ hopening, condition_of_parenOpen _ _ hopening]
        have hstep : ∀ opened', step opened' token = .group :: opened' := fun _ => by
          simp only [step, hopening]
        obtain ⟨taken, hinner⟩ := limited_expression ih fuel (step opened token)
          (by rw [hstep]; rfl) ⟨rest, depth + 1⟩
          ((congrArg (· + 1) hdepth).trans (by rw [hstep]; rfl))
        have hleft : ∀ opened', settle (step opened' token) = .group :: opened' := fun opened' => by
          rw [hstep]
          rfl
        have hnested :=
          limited_nested sourceLength hinner (by simp [Token.opens, hopening]) hdepth hleft
        refine hnested.andThen (fun inner hread => limited_groupEnd _ _) fun opened' hsettle => ?_
        rw [hsettle, List.tail_cons]
      by_cases hname : token.kind = .identifier
      · rw [condition_of_identifier _ _ hname, condition_of_identifier _ _ hname]
        have hneutral : token.IsNeutral := by simp [Token.IsNeutral, hname]
        obtain ⟨taken, hcomparison⟩ :=
          limited_comparison sourceLength limit (step opened token) token rest depth
        refine ⟨token :: taken, hcomparison.cons hneutral.opens_eq fun opened' => ?_⟩
        rw [step_of_isNeutral hneutral]
      · rw [condition_of_other _ _ hnot hopening hname, condition_of_other _ _ hnot hopening hname]
        exact ⟨[], limited_expected ..⟩

end Parser

/-! ## Whole token sequences -/

namespace Query

/-- The tokens that reading takes without a limit, up to where it finishes or fails. -/
def taken (sourceLength : Nat) (tokens : List Token) : List Token :=
  let fuel := tokens.length
  let outcome := Parser.expression (Parser.condition ⟨sourceLength, none⟩ fuel) fuel ⟨tokens, 0⟩
  tokens.take (tokens.length - outcome.2.rest.length)

/-- Reading an expression with a limit is cut off at the first of the tokens that reading without
one takes and that goes beyond the limit. -/
theorem limited_taken (limit sourceLength : Nat) (tokens : List Token) :
    Parser.Limited limit [] settle ⟨tokens, 0⟩ (taken sourceLength tokens)
      (Parser.expression (Parser.condition ⟨sourceLength, none⟩ tokens.length) tokens.length
        ⟨tokens, 0⟩)
      (Parser.expression (Parser.condition ⟨sourceLength, some limit⟩ tokens.length) tokens.length
        ⟨tokens, 0⟩) := by
  obtain ⟨front, h⟩ := Parser.limited_expression
    (Parser.limited_condition limit sourceLength tokens.length) tokens.length [] rfl ⟨tokens, 0⟩ rfl
  have htake : ∀ {rest : List Token}, tokens = front ++ rest →
      tokens.take (tokens.length - rest.length) = front := by
    rintro rest rfl
    rw [List.length_append, Nat.add_sub_cancel, List.take_left]
  have htaken : taken sourceLength tokens = front := htake h.split
  rw [htaken]
  exact h

variable {sourceLength : Nat} {tokens : List Token}

/-- What reading takes is all of a query. -/
theorem taken_of_eq_ok {q : Query} (h : ofTokens ⟨sourceLength, none⟩ tokens = .ok q) :
    taken sourceLength tokens = tokens ∧
      ∀ opened, settle (behind opened tokens) = settle opened := by
  have hlimited := limited_taken 0 sourceLength tokens
  simp only [ofTokens] at h
  split at h
  next => cases h
  next q' depth hread =>
    rw [hread] at hlimited
    have htokens : tokens = taken sourceLength tokens := by
      simpa using hlimited.split
    have hsettle := hlimited.settle_eq _ rfl
    rw [← htokens] at hsettle
    exact ⟨htokens.symm, hsettle⟩
  next => cases h

/-- If all that is read stays within a limit, then the limit makes no difference. -/
theorem ofTokens_eq_of_beyond? {limit : Nat}
    (h : beyond? limit [] (taken sourceLength tokens) = none) :
    ofTokens ⟨sourceLength, some limit⟩ tokens = ofTokens ⟨sourceLength, none⟩ tokens := by
  simp only [ofTokens, (limited_taken limit sourceLength tokens).same h]

/-- The first token that goes beyond a limit is an error. -/
theorem ofTokens_eq_tooDeep {limit : Nat} {token : Token}
    (h : beyond? limit [] (taken sourceLength tokens) = some token) :
    ofTokens ⟨sourceLength, some limit⟩ tokens = .error (.tooDeep limit token.span) := by
  have hcut := (limited_taken limit sourceLength tokens).cut token h
  simp only [ofTokens]
  split
  next error _ hread =>
    rw [hread] at hcut
    exact hcut
  next hread =>
    rw [hread] at hcut
    cases hcut
  next hread =>
    rw [hread] at hcut
    cases hcut

/-- With a limit the tokens are a query just if they are one without and nest within the limit. -/
theorem ofTokens_limited_eq_ok_iff {limit : Nat} {q : Query} :
    ofTokens ⟨sourceLength, some limit⟩ tokens = .ok q ↔
      ofTokens ⟨sourceLength, none⟩ tokens = .ok q ∧
        ∀ before, before <+: tokens → nesting before ≤ limit := by
  constructor
  · intro h
    cases hbeyond : beyond? limit [] (taken sourceLength tokens) with
    | none =>
      rw [ofTokens_eq_of_beyond? hbeyond] at h
      rw [(taken_of_eq_ok h).1, beyond?_eq_none_iff_length_le (Nat.zero_le _)] at hbeyond
      exact ⟨h, hbeyond⟩
    | some token => exact absurd ((ofTokens_eq_tooDeep hbeyond).symm.trans h) nofun
  · rintro ⟨h, hnesting⟩
    rw [ofTokens_eq_of_beyond?, h]
    rw [(taken_of_eq_ok h).1]
    exact (beyond?_eq_none_iff_length_le (Nat.zero_le _)).mpr hnesting

end Query

/-- A limit on nesting only ever cuts reading off, at the first NOT or parenthesis that is opened
where as many are open as the limit allows. So a query is read with a limit just if it nests within
it, a higher limit changes no other result, and a chain nests no deeper than its parts: behind a
query and a junction nesting is as if they were not there. -/
theorem ofTokens_limited (sourceLength limit : Nat) (tokens : List Token) :
    let free := Query.ofTokens ⟨sourceLength, none⟩ tokens
    let bounded := Query.ofTokens ⟨sourceLength, some limit⟩ tokens
    let taken := Query.taken sourceLength tokens
    (OpensWithin limit taken ∧ bounded = free ∨
      ∃ before token after, taken = before ++ token :: after ∧ token.opens ∧
        limit ≤ nesting before ∧ OpensWithin limit before ∧
        bounded = .error (.tooDeep limit token.span)) ∧
    (∀ q, bounded = .ok q ↔
      free = .ok q ∧ ∀ before, before <+: tokens → nesting before ≤ limit) ∧
    (∀ higher, (∀ limit' ∈ higher, limit ≤ limit') →
      (∀ span, bounded ≠ .error (.tooDeep limit span)) →
      Query.ofTokens ⟨sourceLength, higher⟩ tokens = bounded) ∧
    ∀ q, free = .ok q → ∀ context junction rest, junction.kind.logicalOp?.isSome →
      (∀ last ∈ context.getLast?, last.kind = .parenOpen) →
      nesting (context ++ (tokens ++ junction :: rest)) = nesting (context ++ rest) := by
  intro free bounded taken
  refine ⟨?_, fun q => Query.ofTokens_limited_eq_ok_iff, fun higher hhigher h => ?_,
    fun q h context junction rest hjunction hcontext => ?_⟩
  · cases hbeyond : beyond? limit [] taken with
    | none =>
      exact .inl ⟨beyond?_eq_none_iff.mp hbeyond, Query.ofTokens_eq_of_beyond? hbeyond⟩
    | some token =>
      obtain ⟨before, after, htaken, hopens, hlimit, hbefore⟩ := of_beyond?_eq_some hbeyond
      exact .inr ⟨before, token, after, htaken, hopens, hlimit, beyond?_eq_none_iff.mp hbefore,
        Query.ofTokens_eq_tooDeep hbeyond⟩
  · have hbeyond : beyond? limit [] taken = none := by
      rw [Option.eq_none_iff_forall_ne_some]
      exact fun token htoken => h token.span (Query.ofTokens_eq_tooDeep htoken)
    have hfree : bounded = free := Query.ofTokens_eq_of_beyond? hbeyond
    rw [hfree]
    cases higher with
    | none => rfl
    | some limit' =>
      exact Query.ofTokens_eq_of_beyond? (beyond?_eq_none_of_le (hhigher limit' rfl) hbeyond)
  · obtain ⟨op, hop⟩ := Option.isSome_iff_exists.mp hjunction
    have hsettle := (Query.taken_of_eq_ok h).2
    simp only [nesting, behind_append, behind_cons, step_of_logicalOp? hop, hsettle]
    rw [settle_behind_of_getLast? hcontext]

/-- A group in a negation is the second level: the limit is reached at its parenthesis. -/
example : Query.parse "NOT (A = 1)" (some 1) = .error (.tooDeep 1 ⟨4, 5⟩) := by rfl

end ResumeFilter
