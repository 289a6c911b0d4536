import ResumeFilter.Backend.Borrowed

/-!
# One thing after the other

A history is a list of items that something is done for in turn, each time to the state that the
item before has left. What every item does, whatever was done before it, the whole history does
(`inTurn_invariant`); and a history is carried over to another kind of state if its items are
(`inTurn_borrowed`).
-/

namespace ResumeFilter

variable {α β γ σ τ : Type}

/-- Does something to a state for each of the items in turn; with what came of each of them comes
the state that this ends in. -/
def inTurn (act : α → σ → β × σ) : List α → σ → List β × σ
  | [], state => ([], state)
  | item :: items, state =>
    let (result, next) := act item state
    let (results, last) := inTurn act items next
    (result :: results, last)

/-- If what is seen of the result for an item is the same whatever has been done before, and if the
item keeps what holds of the items so far and the state, then so do items in turn. -/
theorem inTurn_invariant {act : α → σ → β × σ} (see : β → γ) {outcome : α → γ}
    (holds : List α → σ → Prop)
    (hstep : ∀ {done : List α} {state : σ}, holds done state → ∀ item,
      see (act item state).1 = outcome item ∧ holds (done ++ [item]) (act item state).2)
    {done : List α} {state : σ} (h : holds done state) (items : List α) :
    (inTurn act items state).1.map see = items.map outcome ∧
      holds (done ++ items) (inTurn act items state).2 := by
  induction items generalizing done state with
  | nil =>
    rw [List.append_nil]
    exact ⟨rfl, h⟩
  | cons item items ih =>
    obtain ⟨hresult, hnext⟩ := hstep h item
    obtain ⟨hresults, hlast⟩ := ih hnext
    rw [List.append_assoc, List.singleton_append] at hlast
    refine ⟨?_, hlast⟩
    rw [inTurn, List.map_cons, List.map_cons, hresult, hresults]

/-- If an item does to a part of a state what it does to the part alone, then so do items in
turn. -/
theorem inTurn_borrowed {act : α → σ → β × σ} {act' : α → τ → β × τ} (part : Part τ σ) {whole : τ}
    (h : ∀ item state, act' item (part.set state whole) =
      ((act item state).1, part.set (act item state).2 whole))
    (items : List α) (state : σ) :
    inTurn act' items (part.set state whole) =
      ((inTurn act items state).1, part.set (inTurn act items state).2 whole) := by
  induction items generalizing state with
  | nil => rfl
  | cons item items ih => simp only [inTurn, h, ih]

end ResumeFilter
