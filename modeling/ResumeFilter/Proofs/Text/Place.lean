import ResumeFilter.Text.Span

/-!
# Places of a text

A place counted in bytes is a boundary if it falls between two characters. Cutting a text at a
boundary loses nothing, so a slice between two boundaries is what stands there.
-/

namespace ResumeFilter.Text

/-! ## Lengths in bytes -/

@[simp]
theorem byteLength_nil : byteLength [] = 0 := rfl

@[simp]
theorem byteLength_cons (c : Char) (cs : List Char) :
    byteLength (c :: cs) = c.utf8Size + byteLength cs := by
  simp [byteLength]

@[simp]
theorem byteLength_append (cs ds : List Char) :
    byteLength (cs ++ ds) = byteLength cs + byteLength ds := by
  simp [byteLength]

/-- Only the empty text takes no bytes. -/
theorem byteLength_pos {cs : List Char} (h : cs ≠ []) : 0 < byteLength cs := by
  obtain ⟨c, cs, rfl⟩ := List.exists_cons_of_ne_nil h
  have := c.utf8Size_pos
  rw [byteLength_cons]
  omega

/-! ## Cutting at a boundary -/

/-- Leaving out some bytes of a text starts with its first character. -/
theorem dropBytes_cons {n : Nat} (h : 0 < n) (c : Char) (cs : List Char) :
    dropBytes n (c :: cs) = dropBytes (n - c.utf8Size) cs := by
  obtain ⟨n, rfl⟩ := Nat.exists_eq_succ_of_ne_zero (by omega : n ≠ 0)
  rfl

/-- Taking some bytes of a text starts with its first character. -/
theorem takeBytes_cons {n : Nat} (h : 0 < n) (c : Char) (cs : List Char) :
    takeBytes n (c :: cs) = c :: takeBytes (n - c.utf8Size) cs := by
  obtain ⟨n, rfl⟩ := Nat.exists_eq_succ_of_ne_zero (by omega : n ≠ 0)
  rfl

@[simp]
theorem dropBytes_append (before after : List Char) :
    dropBytes (byteLength before) (before ++ after) = after := by
  induction before with
  | nil => cases after <;> rfl
  | cons c cs ih =>
    have := c.utf8Size_pos
    rw [byteLength_cons, List.cons_append, dropBytes_cons (by omega), Nat.add_sub_cancel_left, ih]

@[simp]
theorem takeBytes_append (before after : List Char) :
    takeBytes (byteLength before) (before ++ after) = before := by
  induction before with
  | nil => cases after <;> rfl
  | cons c cs ih =>
    have := c.utf8Size_pos
    rw [byteLength_cons, List.cons_append, takeBytes_cons (by omega), Nat.add_sub_cancel_left, ih]

/-- A slice is what stands between two parts of a text. -/
theorem slice_append (before text after : List Char) :
    slice (before ++ text ++ after) ⟨byteLength before, byteLength before + byteLength text⟩ =
      text := by
  simp [slice, List.append_assoc]

/-- Whether a place of a text falls between two characters, or at one of its ends. -/
def IsBoundary (cs : List Char) (place : Nat) : Prop :=
  ∃ before after, cs = before ++ after ∧ byteLength before = place

/-- The place between two parts of a text is a boundary. -/
theorem isBoundary_append (before after : List Char) :
    IsBoundary (before ++ after) (byteLength before) :=
  ⟨before, after, rfl, rfl⟩

/-- A boundary is a place of the text. -/
theorem IsBoundary.le {cs : List Char} {place : Nat} (h : IsBoundary cs place) :
    place ≤ byteLength cs := by
  obtain ⟨before, after, rfl, rfl⟩ := h
  rw [byteLength_append]
  omega

end ResumeFilter.Text
