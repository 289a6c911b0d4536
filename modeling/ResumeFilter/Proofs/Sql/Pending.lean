import ResumeFilter.Sql.Pending

/-!
# Writing with a list of pending output writes the text

At every turn of the loop, what has been written and the pieces of what is still pending make up the
same text: a condition that is replaced by its parts has the pieces of these and of the words around
them. So the loop writes the text of a condition (`Output.write_condition`).
-/

namespace ResumeFilter.Sql.Output

/-- The pieces of an item, and `rest` after them. -/
def piecesThen : Output → List Piece → List Piece
  | .condition c, rest => c.piecesThen rest
  | .word text, rest => .word text :: rest

/-- The pieces of a side of a junction are those of the condition, in parentheses if they are called
for. -/
theorem foldr_side (c : Condition) (parentheses : Bool) (pending : List Output)
    (rest : List Piece) :
    (side c parentheses pending).foldr piecesThen rest =
      if parentheses then .word "(" :: c.piecesThen (.word ")" :: pending.foldr piecesThen rest)
      else c.piecesThen (pending.foldr piecesThen rest) := by
  cases parentheses <;> rfl

/-- Pending output is written behind what has been written. -/
theorem write_eq (config : Config) (pending : List Output) (written : String) :
    write config pending written = written ++ spell config (pending.foldr piecesThen []) := by
  fun_induction write config pending written with
  | case1 written => exact (String.append_empty).symm
  | case2 text pending written ih =>
    rw [ih, List.foldr_cons, piecesThen, spell_cons, Piece.text, String.append_assoc]
  | case3 op left right pending written after ih =>
    rw [ih, foldr_side]
    simp only [after, List.foldr_cons, foldr_side, piecesThen, Condition.piecesThen]
  | case4 inner pending written ih => exact ih
  | case5 column op param pending written ih =>
    rw [ih, List.foldr_cons, piecesThen, Condition.piecesThen, spell_append, String.append_assoc]
  | case6 column params pending written ih =>
    rw [ih, List.foldr_cons, piecesThen, Condition.piecesThen, spell_append, String.append_assoc]

/-- The loop writes the text of a condition. -/
theorem write_condition (config : Config) (c : Condition) :
    write config [.condition c] "" = c.text config :=
  (write_eq config [.condition c] "").trans String.empty_append

end ResumeFilter.Sql.Output
