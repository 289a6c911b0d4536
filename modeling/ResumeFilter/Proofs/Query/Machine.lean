import ResumeFilter.Proofs.Query.Limit
import ResumeFilter.Proofs.Query.Printable
import ResumeFilter.Query.Machine

/-!
# The machine keeps its count

Every production that the machine calls returns with the count of open NOTs and parentheses that it
found, whether it succeeds or fails, and never goes back. What the machine comes to is what reading
comes to (`run_keeps_count`). All this is said of the calls on record; a call that returns is put
there (`Machine.head?_trace_recorded`).

A state is sound if no more is open than there are tokens behind it. The proof takes the productions
one by one: from a sound state, each does what the function of the same name comes to on the tokens
that are left (`Input.Follows`). What is done in sequence is handled once and for all, in
`Input.Follows.bind`.
-/

namespace ResumeFilter

/-- What is between the ends of a text is what is left without its first and last character. -/
theorem Text.HasEnds.inner?_eq {cs : List Char} (h : Text.HasEnds cs) :
    Text.inner? cs = some cs.tail.dropLast := by
  obtain ⟨first, body, last, rfl, hfirst, hlast⟩ := h.exists_eq
  simp [Text.inner?, hfirst, hlast]

/-- Whatever has an inside, that is what is left without its first and last character. -/
theorem Text.eq_of_inner? {cs body : List Char} (h : Text.inner? cs = some body) :
    body = cs.tail.dropLast := by
  cases cs with
  | nil => cases h
  | cons first rest =>
    simp only [Text.inner?, Option.ite_none_right_eq_some, Option.some.injEq] at h
    exact h.2.symm

namespace Parser

open Token (KindSet)

/-! ## Sound states -/

/-- Whether something may happen: a production leaves the count as it is, stays within the tokens
and takes one at least if it succeeds; the count never exceeds the limit nor the number of tokens,
and never goes down from zero. -/
def Input.Allows (input : Input) : Event → Prop
  | .returned _ before after succeeded =>
    after.depth = before.depth ∧ before.pos ≤ after.pos ∧ after.pos ≤ input.tokens.length ∧
      (succeeded → before.pos < after.pos)
  | .entered depth =>
    depth ≤ input.tokens.length ∧ ∀ limit ∈ input.setting.depthLimit, depth ≤ limit
  | .left depth => 0 < depth

/-- Whether a fault is due to the input: a string without ends, or more tokens than the machine can
count. -/
def Input.Causes (input : Input) : Fault → Prop
  | .noQuotes token => token ∈ input.tokens ∧ ¬token.HasEnds
  | .tooMany =>
    maxDepth < input.tokens.length ∧ ∀ limit ∈ input.setting.depthLimit, maxDepth < limit
  | _ => False

/-- What is left to be read in a state. -/
def Input.cursor (input : Input) (state : State) : Cursor :=
  ⟨input.tokens.drop state.pos, state.depth⟩

/-- Whether a state can come up: no more is open than there are tokens behind it, and nothing has
happened that may not. -/
structure Input.Sound (input : Input) (state : State) : Prop where
  depth_le : state.depth ≤ state.pos
  pos_le : state.pos ≤ input.tokens.length
  allowed : ∀ event ∈ state.trace, input.Allows event

/-- Whether a sound state is one behind another one with the same count. -/
structure Input.Reaches (input : Input) (before state : State) : Prop
    extends input.Sound state where
  depth_eq : state.depth = before.depth
  pos_mono : before.pos ≤ state.pos

variable {α β : Type} {input : Input} {before mid state : State} {token : Token}
  {rest : List Token} {depth : Nat}

/-- A state reaches itself. -/
theorem Input.Sound.reaches (h : input.Sound state) : input.Reaches state state :=
  ⟨h, rfl, Nat.le_refl _⟩

/-- What is reached from a state that is reached is reached. -/
theorem Input.Reaches.trans (h : input.Reaches before mid) (h' : input.Reaches mid state) :
    input.Reaches before state :=
  ⟨h'.toSound, h'.depth_eq.trans h.depth_eq, h.pos_mono.trans h'.pos_mono⟩

/-- The token in front of what is left is the next one. -/
theorem getElem?_of_cursor (h : input.cursor state = ⟨token :: rest, depth⟩) :
    input.tokens[state.pos]? = some token := by
  rw [← List.head?_drop, (Cursor.mk.inj h).1, List.head?_cons]

/-- If nothing is left there is no next token. -/
theorem getElem?_of_cursor_nil (h : input.cursor state = ⟨[], depth⟩) :
    input.tokens[state.pos]? = none := by
  rw [← List.head?_drop, (Cursor.mk.inj h).1, List.head?_nil]

/-- Behind the next token the others are left. -/
theorem cursor_advanced (h : input.cursor state = ⟨token :: rest, depth⟩) :
    input.cursor state.advanced = ⟨rest, depth⟩ := by
  obtain ⟨htokens, hdepth⟩ := Cursor.mk.inj h
  rw [Input.cursor, State.advanced, ← List.tail_drop, htokens, List.tail_cons, hdepth]

/-- Taking the next token is a step ahead. -/
theorem Input.Reaches.advanced (h : input.Reaches before state)
    (hcursor : input.cursor state = ⟨token :: rest, depth⟩) :
    input.Reaches before state.advanced ∧ before.pos < state.advanced.pos := by
  obtain ⟨hlt, -⟩ := List.getElem?_eq_some_iff.mp (getElem?_of_cursor hcursor)
  exact ⟨⟨⟨h.depth_le.trans (Nat.le_succ _), hlt, h.allowed⟩, h.depth_eq,
    h.pos_mono.trans (Nat.le_succ _)⟩, Nat.lt_succ_of_le h.pos_mono⟩

/-! ## What the machine does -/

/-- Whether a production that was called in one state and returned in another one, with a result,
has done what reading comes to: the outcome is the same, and the second state is behind the
first, with the same count. -/
structure Input.Reads (input : Input) (before : State) (outcome : Outcome α)
    (result : Except ParseError α) (after : State) : Prop extends input.Reaches before after where
  pos_lt : result.isOk → before.pos < after.pos
  result_eq : outcome.1 = result
  next_eq : result.isOk → outcome.2 = input.cursor after

/-- Whether the machine, at work on a production that was called in a state, does what reading comes
to, unless the input causes a fault. -/
def Input.Follows (input : Input) (before : State) (outcome : Outcome α) :
    Except Fault (Except ParseError α) × State → Prop
  | (.ok result, after) => input.Reads before outcome result after
  | (.error fault, after) => input.Causes fault ∧ ∀ event ∈ after.trace, input.Allows event

section Follows

variable {outcome : Outcome α} {run : Except Fault (Except ParseError α) × State}

/-- Whatever has happened may. -/
theorem Input.Follows.allowed (h : input.Follows before outcome run) :
    ∀ event ∈ run.2.trace, input.Allows event := by
  obtain ⟨_ | _, after⟩ := run
  · exact h.2
  · exact h.toReaches.allowed

/-- What is returned is what reading comes to. -/
theorem Input.Follows.eq_of_ok (h : input.Follows before outcome run)
    {result : Except ParseError α} (hrun : run.1 = .ok result) : outcome.1 = result := by
  obtain ⟨_ | _, after⟩ := run
  · cases hrun
  · exact h.result_eq.trans (Except.ok.inj hrun)

/-- A fault is due to the input. -/
theorem Input.Follows.causes (h : input.Follows before outcome run) {fault : Fault}
    (hrun : run.1 = .error fault) : input.Causes fault := by
  obtain ⟨_ | _, after⟩ := run
  · exact Except.error.inj hrun ▸ h.1
  · cases hrun

end Follows

/-- Succeeding is what reading comes to if it stops here. -/
theorem follows_pure (h : input.Reaches before state) (hlt : before.pos < state.pos) (a : α) :
    input.Follows before (.ok a, input.cursor state) ((pure a : Machine α) input state) :=
  ⟨h, fun _ => hlt, rfl, fun _ => rfl⟩

/-- Failing is what reading comes to if it fails. -/
theorem follows_fail (h : input.Reaches before state) (error : ParseError) (cursor : Cursor) :
    input.Follows before (.error error, cursor) ((Machine.fail error : Machine α) input state) :=
  ⟨h, nofun, rfl, nofun⟩

/-- Asking for something else is what reading does. -/
theorem follows_expected (h : input.Reaches before state) (expectation : Expectation)
    {cursor : Cursor} (hcursor : input.cursor state = cursor) :
    input.Follows before (expected input.setting expectation cursor : Outcome α)
      ((Machine.expected expectation : Machine α) input state) := by
  obtain ⟨_ | ⟨token, rest⟩, depth⟩ := cursor
  · have hnone := getElem?_of_cursor_nil hcursor
    simp only [Machine.expected, bind, Machine.current?, hnone]
    exact follows_fail h _ _
  · have hsome := getElem?_of_cursor hcursor
    simp only [Machine.expected, bind, Machine.current?, hsome]
    exact follows_fail h _ _

/-- What is done in sequence, from wherever the first part was called, follows what is read in
sequence. -/
theorem Input.Follows.bind {start : State} {outcome : Outcome α} {m : Machine α}
    {f : α → Machine β} {more : α → Cursor → Outcome β}
    (h : input.Follows start outcome (m input state)) (hstart : input.Reaches before start)
    (hmore : ∀ a next, input.Reaches before next → start.pos < next.pos →
      outcome = (.ok a, input.cursor next) →
      input.Follows before (more a (input.cursor next)) (f a input next)) :
    input.Follows before (andThen outcome more) ((m >>= f) input state) := by
  simp only [Bind.bind]
  rcases hm : m input state with ⟨fault | error | a, next⟩ <;> rw [hm] at h
  · exact h
  · obtain ⟨result, cursor⟩ := outcome
    obtain rfl : result = .error error := h.result_eq
    exact ⟨hstart.trans h.toReaches, nofun, rfl, nofun⟩
  · have houtcome : outcome = (.ok a, input.cursor next) := Prod.ext h.result_eq (h.next_eq rfl)
    rw [houtcome]
    exact hmore a next (hstart.trans h.toReaches) (h.pos_lt rfl) houtcome

/-- Keeping a record of a call changes nothing about it. -/
theorem Input.Follows.recorded {outcome : Outcome α} {m : Machine α}
    (h : input.Follows state outcome (m input state)) (production : Production) :
    input.Follows state outcome (Machine.recorded production m input state) := by
  simp only [Machine.recorded]
  rcases hm : m input state with ⟨fault | result, next⟩ <;> rw [hm] at h
  · exact h
  · have hevent : input.Allows
        (.returned production state.toPlace next.toPlace result.isOk) :=
      ⟨h.depth_eq, h.pos_mono, h.pos_le, h.pos_lt⟩
    exact ⟨⟨⟨h.depth_le, h.pos_le, List.forall_mem_cons.mpr ⟨hevent, h.allowed⟩⟩, h.depth_eq,
      h.pos_mono⟩, h.pos_lt, h.result_eq, h.next_eq⟩

/-! ## Single steps -/

namespace Machine

/-- Whether the kind of the next token is in a set. -/
theorem isIn_bind (h : input.cursor state = ⟨token :: rest, depth⟩) (set : KindSet)
    (f : Bool → Machine α) :
    (isIn set >>= f) input state = f (set.contains token.kind) input state := by
  simp only [bind, isIn, current?, pure, getElem?_of_cursor h, Option.any_some]

/-- If nothing is left the kind of no token is in a set. -/
theorem isIn_bind_nil (h : input.cursor state = ⟨[], depth⟩) (set : KindSet)
    (f : Bool → Machine α) : (isIn set >>= f) input state = f false input state := by
  simp only [bind, isIn, current?, pure, getElem?_of_cursor_nil h, Option.any_none]

/-- The next token. -/
theorem current?_bind (h : input.cursor state = ⟨token :: rest, depth⟩)
    (f : Option Token → Machine α) :
    (current? >>= f) input state = f (some token) input state := by
  simp only [bind, current?, getElem?_of_cursor h]

/-- If nothing is left there is no next token. -/
theorem current?_bind_nil (h : input.cursor state = ⟨[], depth⟩) (f : Option Token → Machine α) :
    (current? >>= f) input state = f none input state := by
  simp only [bind, current?, getElem?_of_cursor_nil h]

/-- The next token is taken. -/
theorem advance_bind (h : input.cursor state = ⟨token :: rest, depth⟩) (f : Token → Machine α) :
    (advance >>= f) input state = f token input state.advanced := by
  simp only [bind, advance, getElem?_of_cursor h]

/-- The next token is taken if it is of a kind, and otherwise none. -/
theorem accept?_bind (h : input.cursor state = ⟨token :: rest, depth⟩) (kind : Token.Kind)
    (f : Option Token → Machine α) :
    (accept? kind >>= f) input state =
      if token.kind = kind then f (some token) input state.advanced else f none input state := by
  by_cases hkind : token.kind = kind <;>
    simp [bind, accept?, current?, pure, advance, getElem?_of_cursor h, hkind]

/-- If nothing is left no token is taken. -/
theorem accept?_bind_nil (h : input.cursor state = ⟨[], depth⟩) (kind : Token.Kind)
    (f : Option Token → Machine α) :
    (accept? kind >>= f) input state = f none input state := by
  simp [bind, accept?, current?, pure, getElem?_of_cursor_nil h]

/-- A token is taken for the literal that it stands for, or for none, unless it is a string without
ends. -/
theorem literal_cases (token : Token) (input : Input) (state : State) :
    (¬token.HasEnds ∧ literal token input state = (.error (.noQuotes token), state)) ∨
      literal token input state =
        (.ok (token.literal?.elim (.error (.invalidNumber token)) .ok), state) := by
  cases hkind : token.kind with
  | numberLit =>
    right
    cases hnumber : Literal.ofNumber? token.text.toList <;>
      simp only [literal, Token.literal?, hkind, hnumber] <;> rfl
  | stringLit =>
    cases hinner : Text.inner? token.text.toList with
    | none =>
      refine .inl ⟨fun hends => ?_, by simp only [literal, hkind, hinner, halt]⟩
      rw [(hends hkind).inner?_eq] at hinner
      cases hinner
    | some body =>
      right
      simp only [literal, Token.literal?, hkind, hinner, Text.eq_of_inner? hinner]
      rfl
  | _ =>
    right
    simp only [literal, Token.literal?, hkind]
    rfl

end Machine

/-! ## Comparisons -/

/-- Reads a single value. -/
def scalar (setting : Setting) (expectation : Expectation) (cursor : Cursor) : Outcome Value :=
  match cursor.rest with
  | [] => expected setting expectation cursor
  | token :: rest =>
    match token.value expectation with
    | .error error => (.error error, cursor)
    | .ok value => (.ok value, { cursor with rest })

/-- The machine reads a single value. -/
theorem follows_scalar (h : input.Sound state) (expectation : Expectation) {cursor : Cursor}
    (hcursor : input.cursor state = cursor) :
    input.Follows state (scalar input.setting expectation cursor)
      (Machine.scalar expectation input state) := by
  refine .recorded ?_ _
  obtain ⟨_ | ⟨token, rest⟩, depth⟩ := cursor
  · rw [Machine.isIn_bind_nil hcursor]
    exact follows_expected h.reaches expectation hcursor
  rw [Machine.isIn_bind hcursor]
  cases hscalar : KindSet.scalars.contains token.kind with
  | false =>
    have hvalue : token.value expectation = .error (.unexpectedToken expectation token) := by
      simp [Token.value, hscalar]
    simp only [scalar, hvalue]
    exact follows_expected h.reaches expectation hcursor
  | true =>
    obtain ⟨hreaches, hlt⟩ := h.reaches.advanced hcursor
    rw [if_pos rfl, Machine.advance_bind hcursor]
    rcases Machine.literal_cases token input state.advanced with ⟨hends, hliteral⟩ | hliteral
    · simp only [bind, hliteral]
      exact ⟨⟨List.mem_of_getElem? (getElem?_of_cursor hcursor), hends⟩, hreaches.allowed⟩
    · simp only [bind, hliteral]
      cases hliteral? : token.literal? with
      | none =>
        have hvalue : token.value expectation = .error (.invalidNumber token) := by
          simp [Token.value, hscalar, hliteral?]
        simp only [scalar, hvalue]
        exact follows_fail hreaches _ _
      | some literal =>
        have hvalue : token.value expectation = .ok ⟨literal, token.span⟩ := by
          simp [Token.value, hscalar, hliteral?]
        simp only [scalar, hvalue]
        rw [← cursor_advanced hcursor]
        exact follows_pure hreaches hlt _

/-- Values of a set go on with a single value and what comes behind it. -/
theorem setValues_eq_andThen (setting : Setting) (opened token : Token) (depth : Nat)
    (rest : List Token) (values : List Value) :
    setValues setting opened depth (token :: rest) values =
      andThen (scalar setting .setValue ⟨token :: rest, depth⟩) fun value next =>
        match next.rest with
        | [] => (.error (.unclosedSet opened.span setting.sourceLength), next)
        | token :: rest =>
          if token.kind = .braceClose then
            (.ok (.set (value :: values).reverse (opened.span.cover token.span)),
              { next with rest })
          else if token.kind = .comma then
            setValues setting opened next.depth rest (value :: values)
          else expected setting .setSeparator next := by
  simp only [setValues, scalar, andThen]
  cases token.value .setValue with
  | error error => rfl
  | ok value => cases rest <;> rfl

/-- Failing at the end of a set is what reading does. -/
theorem follows_unclosedSet (h : input.Reaches before state) (opened : Token) (cursor : Cursor) :
    input.Follows before (.error (.unclosedSet opened.span input.setting.sourceLength), cursor)
      ((Machine.unclosedSet opened : Machine α) input state) :=
  follows_fail h _ _

/-- The machine reads the values of a set, with more steps than there are tokens left. -/
theorem follows_setValues (opened : Token) {steps : Nat} (values : List Value)
    (h : input.Reaches before state) (hsteps : input.tokens.length < state.pos + steps)
    {cursor : Cursor} (hcursor : input.cursor state = cursor) :
    input.Follows before (setValues input.setting opened cursor.depth cursor.rest values)
      (Machine.setValues opened steps values input state) := by
  -- Every round takes a value and what separates it from the next one.
  induction steps generalizing state values cursor with
  | zero => exact absurd hsteps (Nat.not_lt.mpr h.pos_le)
  | succ steps ih =>
    rw [Machine.setValues]
    obtain ⟨_ | ⟨token, rest⟩, depth⟩ := cursor
    · rw [Machine.current?_bind_nil hcursor]
      exact follows_unclosedSet h opened _
    rw [Machine.current?_bind hcursor, setValues_eq_andThen, ← hcursor]
    refine (follows_scalar h.toSound .setValue rfl).bind h fun value next hnext hlt _ => ?_
    rcases hnext' : input.cursor next with ⟨_ | ⟨separator, rest'⟩, depth'⟩
    · rw [Machine.current?_bind_nil hnext']
      exact follows_unclosedSet hnext opened _
    obtain ⟨hadvanced, hlt'⟩ := hnext.advanced hnext'
    rw [Machine.current?_bind hnext', if_neg nofun, Machine.accept?_bind hnext']
    by_cases hclose : separator.kind = .braceClose
    · simp only [if_pos hclose]
      rw [← cursor_advanced hnext']
      exact follows_pure hadvanced hlt' _
    rw [if_neg hclose]
    simp only [if_neg hclose]
    rw [Machine.accept?_bind hnext']
    by_cases hcomma : separator.kind = .comma
    · rw [if_pos hcomma]
      simp only [if_pos hcomma]
      exact ih _ hadvanced (by simp only [State.advanced]; omega) (cursor_advanced hnext')
    · rw [if_neg hcomma]
      simp only [if_neg hcomma]
      exact follows_expected hnext _ hnext'

/-- The machine reads a set. -/
theorem follows_setLiteral (h : input.Sound state) {opened : Token}
    (hcursor : input.cursor state = ⟨opened :: rest, depth⟩) :
    input.Follows state (setLiteral input.setting opened ⟨rest, depth⟩)
      (Machine.setLiteral input state) := by
  refine .recorded ?_ _
  obtain ⟨hreaches, hlt⟩ := h.reaches.advanced hcursor
  have hadvanced := cursor_advanced hcursor
  have hvalues : input.Follows state (setValues input.setting opened depth rest [])
      (Machine.setValues opened (input.tokens.length + 1) [] input state.advanced) :=
    follows_setValues opened [] hreaches (by omega) hadvanced
  rw [Machine.advance_bind hcursor]
  cases rest with
  | nil =>
    rw [Machine.accept?_bind_nil hadvanced]
    exact hvalues
  | cons next rest =>
    rw [Machine.accept?_bind hadvanced]
    simp only [setLiteral]
    by_cases hclose : next.kind = .braceClose
    · obtain ⟨hreaches', hlt'⟩ := hreaches.advanced hadvanced
      rw [if_pos hclose, if_pos hclose, ← cursor_advanced hadvanced]
      exact follows_pure hreaches' hlt' _
    · rw [if_neg hclose, if_neg hclose]
      exact hvalues

/-- What is no set is a single value. -/
theorem operand_eq_andThen (setting : Setting) (hkind : token.kind ≠ .braceOpen)
    (rest : List Token) (depth : Nat) :
    operand setting ⟨token :: rest, depth⟩ =
      andThen (scalar setting .value ⟨token :: rest, depth⟩)
        fun value next => (.ok (.scalar value), next) := by
  simp only [operand, scalar, if_neg hkind]
  cases token.value .value <;> rfl

/-- The machine reads an operand. -/
theorem follows_operand (h : input.Sound state) {cursor : Cursor}
    (hcursor : input.cursor state = cursor) :
    input.Follows state (operand input.setting cursor) (Machine.operand input state) := by
  refine .recorded ?_ _
  obtain ⟨_ | ⟨token, rest⟩, depth⟩ := cursor
  · rw [Machine.isIn_bind_nil hcursor]
    exact follows_expected h.reaches .value hcursor
  have hfirst : KindSet.valueFirst.contains token.kind =
      (KindSet.scalars.contains token.kind || token.kind = .braceOpen) := by
    cases token.kind <;> rfl
  rw [Machine.isIn_bind hcursor, hfirst]
  by_cases hopened : token.kind = .braceOpen
  · have hsome : (some token).any (·.kind = .braceOpen) = true := by simp [hopened]
    rw [if_pos (by simp [hopened]), Machine.current?_bind hcursor, if_pos hsome]
    simp only [operand, if_pos hopened]
    exact follows_setLiteral h hcursor
  have hnone : ¬(some token).any (·.kind = .braceOpen) = true := by simp [hopened]
  cases hscalar : KindSet.scalars.contains token.kind with
  | false =>
    have hvalue : token.value .value = .error (.unexpectedToken .value token) := by
      simp [Token.value, hscalar]
    rw [if_neg (by simp [hopened])]
    simp only [operand, if_neg hopened, hvalue]
    exact follows_expected h.reaches .value hcursor
  | true =>
    rw [if_pos (by simp), Machine.current?_bind hcursor, if_neg hnone,
      operand_eq_andThen _ hopened]
    exact (follows_scalar h .value hcursor).bind h.reaches fun value next hnext hlt _ =>
      follows_pure hnext hlt _

/-- Failing for want of something else goes on being what reading does. -/
theorem Input.Follows.bind_expected {expectation : Expectation} {cursor : Cursor} {m : Machine α}
    (h : input.Follows before (expected input.setting expectation cursor) (m input state))
    (hbefore : input.Sound before) (f : α → Machine β) :
    input.Follows before (expected input.setting expectation cursor : Outcome β)
      ((m >>= f) input state) := by
  have hstop : (expected input.setting expectation cursor : Outcome β) =
      andThen (expected input.setting expectation cursor : Outcome α)
        fun _ => expected input.setting expectation := by
    unfold expected
    split <;> rfl
  rw [hstop]
  exact h.bind hbefore.reaches fun a next _ _ hok => absurd hok expected_ne_ok

/-- A comparison after its field name is a comparator and an operand. -/
theorem comparison_eq_andThen (setting : Setting) (field : Token) {op : CompareOp}
    (hop : token.kind.compareOp? = some op) (rest : List Token) (depth : Nat) :
    comparison setting field ⟨token :: rest, depth⟩ =
      andThen (operand setting ⟨rest, depth⟩) fun operand next =>
        (.ok (.comparison ⟨⟨field.text, field.span⟩, op, operand⟩), next) := by
  simp only [comparison, hop]
  rcases operand setting ⟨rest, depth⟩ with ⟨_ | _, _⟩ <;> rfl

/-- A comparator is taken for the comparison that it stands for. -/
theorem Machine.comparator_bind (h : input.cursor state = ⟨token :: rest, depth⟩) {op : CompareOp}
    (hop : token.kind.compareOp? = some op) (f : CompareOp → Machine α) :
    (comparator >>= f) input state = f op input state.advanced := by
  have hset : KindSet.comparators.contains token.kind = true := by
    rw [← Token.Kind.isSome_compareOp?, hop, Option.isSome_some]
  have htaken : comparator input state = (.ok (.ok op), state.advanced) := by
    rw [comparator, isIn_bind h, if_pos hset, advance_bind h, hop]
    rfl
  simp only [bind, htaken]

/-- The machine reads a comparison. -/
theorem follows_comparison (h : input.Sound state) {field : Token}
    (hcursor : input.cursor state = ⟨field :: rest, depth⟩) (hfield : field.kind = .identifier) :
    input.Follows state (comparison input.setting field ⟨rest, depth⟩)
      (Machine.comparison input state) := by
  refine .recorded ?_ _
  obtain ⟨hreaches, hlt⟩ := h.reaches.advanced hcursor
  have hadvanced := cursor_advanced hcursor
  rw [Machine.accept?_bind hcursor, if_pos hfield]
  cases rest with
  | nil =>
    simp only [comparison]
    refine Input.Follows.bind_expected ?_ h _
    rw [Machine.comparator, Machine.isIn_bind_nil hadvanced]
    exact follows_expected hreaches .comparator hadvanced
  | cons token rest =>
    cases hop : token.kind.compareOp? with
    | none =>
      have hset : KindSet.comparators.contains token.kind = false := by
        rw [← Token.Kind.isSome_compareOp?, hop, Option.isSome_none]
      simp only [comparison, hop]
      refine Input.Follows.bind_expected ?_ h _
      rw [Machine.comparator, Machine.isIn_bind hadvanced, hset]
      exact follows_expected hreaches .comparator hadvanced
    | some op =>
      obtain ⟨hreaches', hlt'⟩ := hreaches.advanced hadvanced
      simp only [Machine.comparator_bind hadvanced hop]
      rw [comparison_eq_andThen _ _ hop]
      refine (follows_operand hreaches'.toSound (cursor_advanced hadvanced)).bind hreaches'
        fun operand next hnext hlt'' _ => ?_
      exact follows_pure hnext (hreaches'.pos_mono.trans_lt hlt'') _

/-! ## Conditions and expressions -/

/-- Whatever happens in a NOT or a parenthesis, leaving it takes the count back. -/
theorem follows_within {inner : Machine Query} {outcome : Outcome Query}
    (h : input.Follows mid outcome (inner input mid)) (hdepth : mid.depth = before.depth + 1)
    (hpos : before.pos ≤ mid.pos) :
    input.Follows before
      (outcome.1, { outcome.2 with depth := outcome.2.depth - 1 })
      (Machine.within inner input mid) := by
  simp only [Machine.within, bind, Machine.attempt, Machine.leave]
  rcases hinner : inner input mid with ⟨fault | result, after⟩ <;> rw [hinner] at h
  · exact h
  have hafter : after.depth = before.depth + 1 := h.depth_eq.trans hdepth
  have hleft : input.Reaches before after.left := by
    have hevent : input.Allows (.left after.depth) := by
      rw [hafter]
      exact Nat.succ_pos _
    refine ⟨⟨?_, h.pos_le, List.forall_mem_cons.mpr ⟨hevent, h.allowed⟩⟩, ?_,
      hpos.trans h.pos_mono⟩
    · exact (Nat.sub_le _ _).trans h.depth_le
    · simp only [State.left, hafter, Nat.add_sub_cancel]
  -- An error goes on only from here, with the count taken back.
  cases result with
  | error error => exact ⟨hleft, nofun, h.result_eq, nofun⟩
  | ok query =>
    refine ⟨hleft, fun _ => hpos.trans_lt (h.pos_lt rfl), h.result_eq, fun _ => ?_⟩
    simp only [h.next_eq rfl]
    rfl

/-- The machine reads what is nested, unless that exceeds the limit or the count. -/
theorem follows_nested (h : input.Sound state)
    (hcursor : input.cursor state = ⟨token :: rest, depth⟩) {inner : Machine Query}
    {read : Cursor → Outcome Query}
    (hinner : ∀ mid, input.Sound mid → state.pos < mid.pos → input.cursor mid = ⟨rest, depth + 1⟩ →
      input.Follows mid (read ⟨rest, depth + 1⟩) (inner input mid))
    {f : Token → Query → Machine Query} {more : Query → Cursor → Outcome Query}
    (hmore : ∀ query next, input.Reaches state next → state.pos < next.pos →
      input.Follows state (more query (input.cursor next)) (f token query input next)) :
    input.Follows state
      (andThen (nested input.setting token read rest ⟨token :: rest, depth⟩) more)
      ((do
        Machine.enter
        let token ← Machine.advance
        let query ← Machine.within inner
        f token query) input state) := by
  have htoken := getElem?_of_cursor hcursor
  obtain ⟨hlt, -⟩ := List.getElem?_eq_some_iff.mp htoken
  obtain ⟨hrest, rfl⟩ := Cursor.mk.inj hcursor
  cases hlimit : input.setting.depthLimit.filter (· ≤ state.depth) with
  | some limit =>
    simp only [nested, hlimit, andThen, bind, Machine.enter, htoken]
    exact follows_fail h.reaches _ _
  | none =>
    have hbelow : ∀ limit ∈ input.setting.depthLimit, state.depth < limit := fun limit hmem => by
      rw [Option.filter_eq_none_iff] at hlimit
      simpa using hlimit limit hmem
    have hdepth : state.depth + 1 ≤ input.tokens.length := Nat.succ_le_of_lt
      (h.depth_le.trans_lt hlt)
    by_cases hmax : state.depth = maxDepth
    · simp only [bind, Machine.enter, hlimit, if_pos hmax]
      exact ⟨⟨hmax ▸ hdepth, fun limit hmem => hmax ▸ hbelow limit hmem⟩, h.allowed⟩
    -- The state is not sound again until the token that was entered is taken as well.
    have henter : Machine.enter input state = (.ok (.ok ()), state.entered) := by
      simp only [Machine.enter, hlimit, if_neg hmax]
    have hentered : input.cursor state.entered = ⟨token :: rest, state.depth + 1⟩ :=
      congrArg (Cursor.mk · _) hrest
    have hmid : input.Sound state.entered.advanced :=
      ⟨Nat.succ_le_succ h.depth_le, hlt, List.forall_mem_cons.mpr ⟨⟨hdepth, hbelow⟩, h.allowed⟩⟩
    have hwithin := follows_within
      (hinner _ hmid (Nat.lt_succ_self _) (cursor_advanced hentered)) rfl (Nat.le_succ _)
    have hnested : nested input.setting token read rest ⟨token :: rest, state.depth⟩ =
        ((read ⟨rest, state.depth + 1⟩).1, { (read ⟨rest, state.depth + 1⟩).2 with
          depth := (read ⟨rest, state.depth + 1⟩).2.depth - 1 }) := by
      simp only [nested, hlimit]
    have hrun : ∀ g : Unit → Machine Query,
        (Machine.enter >>= g) input state = g () input state.entered := fun g => by
      simp only [bind, henter]
    rw [hrun, Machine.advance_bind hentered, hnested]
    exact hwithin.bind h.reaches fun query next hnext hlt' _ => hmore query next hnext hlt'

/-- Whether the machine reads what a production does, with no more tokens left than there is
fuel. -/
def Input.Implements (input : Input) (fuel : Nat) (read : Cursor → Outcome Query)
    (m : Machine Query) : Prop :=
  ∀ state, input.Sound state → input.tokens.length ≤ state.pos + fuel →
    input.Follows state (read (input.cursor state)) (m input state)

/-- The machine reads a chain, if it reads conditions. -/
theorem follows_chain {condition : Machine Query} {read : Cursor → Outcome Query} {fuel : Nat}
    (hcondition : input.Implements fuel read condition) (steps : Nat) (left : Query)
    (h : input.Reaches before state) (hlt : before.pos < state.pos)
    (hsteps : input.tokens.length ≤ state.pos + steps)
    (hfuel : input.tokens.length ≤ state.pos + fuel) :
    input.Follows before (chain read steps left (input.cursor state))
      (Machine.chain condition (steps + 1) left input state) := by
  -- The machine needs one step more than reading does to see that no token is left.
  induction steps generalizing state left with
  | zero =>
    have hnil : input.cursor state = ⟨[], state.depth⟩ :=
      congrArg (Cursor.mk · _) (List.drop_eq_nil_of_le hsteps)
    rw [Machine.chain, Machine.isIn_bind_nil hnil]
    exact follows_pure h hlt left
  | succ steps ih =>
    rw [Machine.chain]
    rcases hcursor : input.cursor state with ⟨_ | ⟨token, rest⟩, depth⟩
    · rw [Machine.isIn_bind_nil hcursor]
      simp only [chain, ← hcursor]
      exact follows_pure h hlt left
    rw [Machine.isIn_bind hcursor, ← Token.Kind.isSome_logicalOp?]
    cases hop : token.kind.logicalOp? with
    | none =>
      simp only [chain, hop, ← hcursor]
      exact follows_pure h hlt left
    | some op =>
      obtain ⟨hadvanced, -⟩ := h.advanced hcursor
      have hpos : state.advanced.pos = state.pos + 1 := rfl
      rw [Option.isSome_some, if_pos rfl, Machine.advance_bind hcursor, hop,
        chain_eq_andThen _ _ _ hop, ← cursor_advanced hcursor]
      refine (hcondition _ hadvanced.toSound (by omega)).bind hadvanced
        fun right next hnext hlt' _ => ?_
      exact ih _ hnext (by omega) (by omega) (by omega)

/-- The machine reads an expression, if it reads conditions. -/
theorem follows_expression {condition : Machine Query} {read : Cursor → Outcome Query} {fuel : Nat}
    (hcondition : input.Implements fuel read condition) :
    input.Implements fuel (expression read fuel) (Machine.expression condition (fuel + 1)) := by
  intro state h hfuel
  refine .recorded ?_ _
  rw [expression_eq_andThen]
  refine (hcondition state h hfuel).bind h.reaches fun first next hnext hlt _ => ?_
  exact follows_chain hcondition fuel first hnext hlt (by omega) (by omega)

/-- The machine reads a negation, if it reads conditions. -/
theorem follows_negation {condition : Machine Query} {read : Cursor → Outcome Query} {fuel : Nat}
    (hcondition : input.Implements fuel read condition) (h : input.Sound state)
    (hfuel : input.tokens.length ≤ state.pos + (fuel + 1))
    (hcursor : input.cursor state = ⟨token :: rest, depth⟩) :
    input.Follows state
      (andThen (nested input.setting token read rest ⟨token :: rest, depth⟩)
        fun inner next => (.ok (.not inner), next))
      (Machine.negation condition input state) := by
  refine .recorded ?_ _
  refine follows_nested h hcursor (fun mid hmid hlt hcursor' => ?_) fun query next hnext hlt => ?_
  · rw [← hcursor']
    exact hcondition mid hmid (by omega)
  · exact follows_pure hnext hlt _

/-- The machine reads a group, if it reads expressions. -/
theorem follows_group {expression : Machine Query} {read : Cursor → Outcome Query} {fuel : Nat}
    (hexpression : input.Implements fuel read expression) (h : input.Sound state)
    (hfuel : input.tokens.length ≤ state.pos + (fuel + 1))
    (hcursor : input.cursor state = ⟨token :: rest, depth⟩) :
    input.Follows state
      (andThen (nested input.setting token read rest ⟨token :: rest, depth⟩)
        (groupEnd input.setting token))
      (Machine.group expression input state) := by
  refine .recorded ?_ _
  refine follows_nested h hcursor (fun mid hmid hlt hcursor' => ?_) fun query next hnext hlt => ?_
  · rw [← hcursor']
    exact hexpression mid hmid (by omega)
  · rcases hnext' : input.cursor next with ⟨_ | ⟨closing, rest'⟩, depth'⟩
    · rw [Machine.accept?_bind_nil hnext']
      exact follows_expected hnext _ hnext'
    rw [Machine.accept?_bind hnext']
    simp only [groupEnd]
    by_cases hclosing : closing.kind = .parenClose
    · obtain ⟨hadvanced, hlt'⟩ := hnext.advanced hnext'
      rw [if_pos hclosing, if_pos hclosing, ← cursor_advanced hnext']
      exact follows_pure hadvanced hlt' query
    · rw [if_neg hclosing, if_neg hclosing]
      exact follows_expected hnext _ hnext'

/-- The machine reads a condition. -/
theorem follows_condition (input : Input) (fuel : Nat) :
    input.Implements fuel (condition input.setting fuel) (Machine.condition (fuel + 1)) := by
  induction fuel with
  | zero =>
    intro state h hfuel
    have hnil : input.cursor state = ⟨[], state.depth⟩ :=
      congrArg (Cursor.mk · _) (List.drop_eq_nil_of_le hfuel)
    refine .recorded ?_ _
    rw [Machine.isIn_bind_nil hnil, hnil]
    exact follows_expected h.reaches .condition hnil
  | succ fuel ih =>
    intro state h hfuel
    refine .recorded ?_ _
    rcases hcursor : input.cursor state with ⟨_ | ⟨token, rest⟩, depth⟩
    · rw [Machine.isIn_bind_nil hcursor]
      exact follows_expected h.reaches .condition hcursor
    rw [Machine.isIn_bind hcursor]
    have hfirst : KindSet.conditionFirst.contains token.kind ↔ _ :=
      Token.Kind.contains_conditionFirst
    by_cases hnot : token.kind = .not
    · rw [if_pos (hfirst.mpr (.inl hnot)), Machine.current?_bind hcursor, Option.map_some, hnot,
        condition_of_not _ _ hnot]
      exact follows_negation ih h hfuel hcursor
    by_cases hopening : token.kind = .parenOpen
    · rw [if_pos (hfirst.mpr (.inr (.inl hopening))), Machine.current?_bind hcursor,
        Option.map_some, hopening, condition_of_parenOpen _ _ hopening]
      exact follows_group (follows_expression ih) h hfuel hcursor
    by_cases hname : token.kind = .identifier
    · rw [if_pos (hfirst.mpr (.inr (.inr hname))), Machine.current?_bind hcursor,
        Option.map_some, hname, condition_of_identifier _ _ hname]
      exact follows_comparison h hcursor hname
    · rw [if_neg fun hset => (hfirst.mp hset).elim hnot (Or.rec hopening hname),
        condition_of_other _ _ hnot hopening hname]
      exact follows_expected h.reaches .condition hcursor

/-! ## Records -/

namespace Machine

/-- When a call returns, that it has is the latest thing on record. -/
theorem head?_trace_recorded {production : Production} {m : Machine α}
    {result : Except ParseError α} (h : recorded production m input before = (.ok result, state)) :
    state.trace.head? =
      some (.returned production before.toPlace state.toPlace result.isOk) := by
  rw [recorded] at h
  rcases hm : m input before with ⟨fault | result', after⟩ <;> rw [hm] at h
  · exact absurd (congrArg Prod.fst h) nofun
  · obtain ⟨hresult, rfl⟩ := Prod.mk.inj h
    obtain rfl := Except.ok.inj hresult
    rfl

/-- When a run returns, that the expression has which is the whole query is the latest thing on
record: what follows it takes no token. It has succeeded if the run does. -/
theorem exists_head?_trace_run {setting : Setting} {tokens : List Token}
    {result : Except ParseError Query} (h : run setting tokens = (.ok result, state)) :
    ∃ succeeded : Bool,
      state.trace.head? = some (.returned .expression ⟨0, 0⟩ state.toPlace succeeded) ∧
        (result.isOk → succeeded) := by
  rw [run, query] at h
  simp only [bind, Machine.input] at h
  rcases hread : expression (condition (tokens.length + 1)) (tokens.length + 1)
      ⟨setting, tokens⟩ ⟨⟨0, 0⟩, []⟩ with ⟨fault | error | q, after⟩ <;> rw [hread] at h
  · exact absurd (congrArg Prod.fst h) nofun
  · obtain ⟨hresult, rfl⟩ := Prod.mk.inj h
    obtain rfl := Except.ok.inj hresult
    exact ⟨false, head?_trace_recorded hread, nofun⟩
  · obtain rfl : after = state := by
      simp only [current?] at h
      cases htoken : tokens[after.pos]? <;> rw [htoken] at h <;> exact (Prod.mk.inj h).2
    exact ⟨true, head?_trace_recorded hread, fun _ => rfl⟩

end Machine

/-! ## Queries -/

/-- What a query is read as: an expression with nothing behind it. -/
def wholeQuery (setting : Setting) (tokens : List Token) : Outcome Query :=
  andThen (expression (condition setting tokens.length) tokens.length ⟨tokens, 0⟩)
    fun query next => match next.rest with
      | [] => (.ok query, next)
      | token :: _ => (.error (.trailingInput token), next)

/-- Where a query ends does not matter any more. -/
theorem ofTokens_eq_wholeQuery (setting : Setting) (tokens : List Token) :
    Query.ofTokens setting tokens = (wholeQuery setting tokens).1 := by
  simp only [Query.ofTokens, wholeQuery]
  rcases expression (condition setting tokens.length) tokens.length ⟨tokens, 0⟩ with
    ⟨_ | _, ⟨_ | _, _⟩⟩ <;> rfl

/-- The machine reads a query. -/
theorem follows_run (setting : Setting) (tokens : List Token) :
    Input.Follows ⟨setting, tokens⟩ ⟨⟨0, 0⟩, []⟩ (wholeQuery setting tokens)
      (Machine.run setting tokens) := by
  have hstart : Input.Sound ⟨setting, tokens⟩ ⟨⟨0, 0⟩, []⟩ :=
    ⟨Nat.le_refl _, Nat.zero_le _, nofun⟩
  have hexpression : Input.Implements ⟨setting, tokens⟩ tokens.length
      (expression (condition setting tokens.length) tokens.length)
      (Machine.expression (Machine.condition (tokens.length + 1)) (tokens.length + 1)) :=
    follows_expression (follows_condition ⟨setting, tokens⟩ tokens.length)
  refine (hexpression _ hstart (by simp)).bind hstart.reaches fun query next hnext hlt _ => ?_
  rcases hcursor : Input.cursor ⟨setting, tokens⟩ next with ⟨_ | ⟨token, rest⟩, depth⟩
  · have hpure := follows_pure hnext hlt query
    rw [hcursor] at hpure
    rw [Machine.current?_bind_nil hcursor]
    exact hpure
  · rw [Machine.current?_bind hcursor]
    exact follows_fail hnext _ _

end Parser

/-- A token takes a byte at least. -/
theorem Token.Run.length_le {offset stop : Nat} {cs rest : List Char} {tokens : List Token}
    (h : Run offset cs tokens stop rest) : offset + tokens.length ≤ stop := by
  induction h with
  | done => exact Nat.le_refl _
  | blank => omega
  | token hlexeme =>
    have hpos := Text.byteLength_pos (isLongest_of_lexeme? hlexeme).matches_text.ne_nil
    rw [List.length_cons]
    omega

namespace Parser

/-- Whatever the tokens and the limit, every production that returns, with a value or an error, does
so with the count that it found, at or behind the token where it was called, and behind it if it
succeeds. The last one to return is the expression at the first token. The count never exceeds the
limit nor the number of tokens and never goes down from zero, and no token is taken where there is
none: the machine comes to what reading comes to, unless there is a string without ends or no limit
and no room for the count. Neither can be if the tokens are those of a text of less than four
gibibytes. -/
theorem run_keeps_count (setting : Setting) (tokens : List Token) :
    let run := Machine.run setting tokens
    (∀ production before after (succeeded : Bool),
      .returned production before after succeeded ∈ run.2.trace →
        after.depth = before.depth ∧ before.pos ≤ after.pos ∧ after.pos ≤ tokens.length ∧
          (succeeded → before.pos < after.pos)) ∧
    (∀ result, run.1 = .ok result → ∃ succeeded : Bool,
      run.2.trace.head? = some (.returned .expression ⟨0, 0⟩ run.2.toPlace succeeded) ∧
        (result.isOk → succeeded)) ∧
    (∀ depth, .entered depth ∈ run.2.trace →
      depth ≤ tokens.length ∧ ∀ limit ∈ setting.depthLimit, depth ≤ limit) ∧
    (∀ depth, .left depth ∈ run.2.trace → 0 < depth) ∧
    (∀ result, run.1 = .ok result → result = Query.ofTokens setting tokens) ∧
    (∀ fault, run.1 = .error fault →
      (∃ token ∈ tokens, fault = .noQuotes token ∧ ¬token.HasEnds) ∨
        fault = .tooMany ∧ maxDepth < tokens.length ∧
          ∀ limit ∈ setting.depthLimit, maxDepth < limit) ∧
    ∀ source, Token.scan source = .ok tokens → Text.byteLength source ≤ maxDepth →
      run.1 = .ok (Query.ofTokens setting tokens) := by
  intro run
  have hfollows := follows_run setting tokens
  have hallowed := hfollows.allowed
  have hresult : ∀ result, run.1 = .ok result → result = Query.ofTokens setting tokens :=
    fun result hrun => ((ofTokens_eq_wholeQuery setting tokens).trans (hfollows.eq_of_ok hrun)).symm
  refine ⟨fun _ _ _ _ => hallowed _,
    fun result hrun => Machine.exists_head?_trace_run (Prod.ext hrun rfl),
    fun _ => hallowed _, fun _ => hallowed _, hresult,
    fun fault hrun => ?_, fun source hscan hlength => ?_⟩
  · have hcause := hfollows.causes hrun
    cases fault with
    | noQuotes token => exact .inl ⟨token, hcause.1, rfl, hcause.2⟩
    | tooMany => exact .inr ⟨rfl, hcause⟩
    | noToken | noField | noStep => exact hcause.elim
  · cases hrun : run.1 with
    | ok result => rw [hresult result hrun]
    | error fault =>
      have hcause := hfollows.causes hrun
      cases fault with
      | noQuotes token => exact absurd (Token.hasEnds_of_scan hscan token hcause.1) hcause.2
      | tooMany =>
        have hle := (Token.run_of_scan hscan).length_le
        have hlt : maxDepth < tokens.length := hcause.1
        omega
      | noToken | noField | noStep => exact hcause.elim

/-- An error inside two levels, a NOT and a parenthesis at the end of the text, leaves both. -/
example :
    ((Machine.run ⟨5, none⟩
      [⟨.not, ⟨0, 3⟩, "NOT"⟩, ⟨.parenOpen, ⟨4, 5⟩, "("⟩]).2.trace.reverse) =
      [.entered 1, .entered 2, .returned .condition ⟨2, 2⟩ ⟨2, 2⟩ false,
        .returned .expression ⟨2, 2⟩ ⟨2, 2⟩ false, .left 2,
        .returned .group ⟨1, 1⟩ ⟨2, 1⟩ false, .returned .condition ⟨1, 1⟩ ⟨2, 1⟩ false, .left 1,
        .returned .negation ⟨0, 0⟩ ⟨2, 0⟩ false, .returned .condition ⟨0, 0⟩ ⟨2, 0⟩ false,
        .returned .expression ⟨0, 0⟩ ⟨2, 0⟩ false] := by
  decide

end Parser

end ResumeFilter
