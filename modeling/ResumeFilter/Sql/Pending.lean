import ResumeFilter.Sql.Select

/-!
# Writing a condition with a list of pending output

The text of a condition can be written without going into its parts one inside the other. What is
still to be written is kept in a list, the next item first, and a condition with parts is replaced
there by its parts and the words around them: writing is then a loop, however long a chain is.
-/

namespace ResumeFilter.Sql

/-- What is still to be written. -/
inductive Output
  | condition (c : Condition)
  | word (text : String)

/-- No more turns than this are taken for a condition. -/
def Condition.size : Condition → Nat
  | .compare _ _ _ => 1
  | .isIn _ _ => 1
  | .not inner => inner.size + 3
  | .combine _ left right => left.size + right.size + 6

namespace Output

/-- No more turns than this are taken for an item. -/
def size : Output → Nat
  | .condition c => c.size
  | .word _ => 1

/-- No more turns than this are taken for pending output. -/
def pendingSize : List Output → Nat
  | [] => 0
  | item :: pending => item.size + pendingSize pending

/-- A side of a junction in front of other output, in parentheses if they are called for. -/
def side (c : Condition) (parentheses : Bool) (pending : List Output) : List Output :=
  if parentheses then .word "(" :: .condition c :: .word ")" :: pending else .condition c :: pending

/-- Parentheses take two turns. -/
theorem pendingSize_side_le (c : Condition) (parentheses : Bool) (pending : List Output) :
    pendingSize (side c parentheses pending) ≤ c.size + pendingSize pending + 2 := by
  cases parentheses <;>
    simp only [side, if_true, if_false, Bool.false_eq_true, pendingSize, size] <;> omega

/-- Writes pending output behind what has been written. -/
def write (config : Config) : List Output → String → String
  | [], written => written
  | .word text :: pending, written => write config pending (written ++ text)
  | .condition (.combine op left right) :: pending, written =>
    let after := .word (" " ++ logicalOpText op ++ " ") ::
      side right right.junction?.isSome pending
    write config (side left (left.junction?.any (· ≠ op)) after) written
  | .condition (.not inner) :: pending, written =>
    write config (.word "NOT (" :: .condition inner :: .word ")" :: pending) written
  | .condition (.compare column op param) :: pending, written =>
    write config pending (written ++ spell config (comparePieces column op param))
  | .condition (.isIn column params) :: pending, written =>
    write config pending (written ++ spell config (isInPieces column params))
termination_by pending => pendingSize pending
decreasing_by
  · simp only [pendingSize, size]
    omega
  · have hleft := pendingSize_side_le left (left.junction?.any (· ≠ op))
      (.word (" " ++ logicalOpText op ++ " ") :: side right right.junction?.isSome pending)
    have hright := pendingSize_side_le right right.junction?.isSome pending
    simp only [pendingSize, size, Condition.size] at hleft ⊢
    omega
  all_goals
    simp only [pendingSize, size, Condition.size]
    omega

end Output

end ResumeFilter.Sql
