import ResumeFilter.Proofs.Query.Traversal
import ResumeFilter.Query.Pending
import ResumeFilter.Query.Text

/-!
# Walks and the structure of a query

What a walk through a query comes to can be read off the structure of the query: the conditions that
it meets (`preorder`), the comparisons among them (`leaves`), how deep the query is (`height`), and
its text (`recursiveText`). Each walk is a loop, with a list of pending parts or along the left
side, and what such a loop comes to for several pending queries is what it comes to for one after
the other. `walk_eq_foldl`, `deepestPending_eq` and `outlinePending_eq` say so.

The main statements are `walks_eq_recursion` and `outlinePending_outline`.
-/

namespace ResumeFilter.Query

universe u

/-! ## Definitions by the structure of a query -/

/-- The conditions of a query: itself, then those of its left part, then those of its right part. -/
def preorder : Query → List Query
  | .comparison c => [.comparison c]
  | .not inner => .not inner :: inner.preorder
  | .logical op left right => .logical op left right :: (left.preorder ++ right.preorder)

/-- The height of a query: one for a comparison, and one more than the highest part otherwise. -/
def height : Query → Nat
  | .comparison _ => 1
  | .not inner => 1 + inner.height
  | .logical _ left right => 1 + max left.height right.height

/-- A text in parentheses if `grouped` is set. -/
def parenthesized (grouped : Bool) (text : String) : String :=
  if grouped then "(" ++ text ++ ")" else text

/-- The text of a query in terms of the texts of its parts. -/
def recursiveText : Query → String
  | .comparison c => c.text
  | .not inner => "NOT " ++ parenthesized inner.isLogical inner.recursiveText
  | .logical op left right =>
    left.recursiveText ++ " " ++ op.text ++ " " ++
      parenthesized right.isLogical right.recursiveText

/-! ## Visiting -/

/-- A walk visits the conditions of pending queries one query after the other. -/
theorem walk_eq_foldl {σ : Type u} (visit : σ → Query → σ) (pending : List Query)
    (state : σ) : walk visit pending state = (pending.flatMap preorder).foldl visit state := by
  fun_induction walk visit pending state with
  | case1 => rfl
  | case2 c pending state ih => exact ih
  | case3 inner pending state ih => exact ih
  | case4 op left right pending state ih =>
    rw [ih, List.flatMap_cons, List.flatMap_cons, List.flatMap_cons, preorder, List.cons_append,
      List.foldl_cons, List.append_assoc]

/-- The conditions of a query come in front of what follows them. -/
theorem nodesThen_eq (q : Query) (rest : List Query) : q.nodesThen rest = q.preorder ++ rest := by
  induction q generalizing rest with
  | comparison c => rfl
  | not inner ih => rw [nodesThen, ih, preorder, List.cons_append]
  | logical op left right ihleft ihright =>
    rw [nodesThen, ihright, ihleft, preorder, List.cons_append, List.append_assoc]

/-- Collecting the comparisons among the conditions of a query finds its leaves. -/
theorem foldl_collect_preorder (q : Query) (found : List Comparison) :
    q.preorder.foldl collect found = found ++ q.leaves := by
  induction q generalizing found with
  | comparison c => rfl
  | not inner ih => exact ih found
  | logical op left right ihleft ihright =>
    have hskip : collect found (.logical op left right) = found := rfl
    rw [preorder, List.foldl_cons, hskip, List.foldl_append, ihleft, ihright, leaves,
      List.append_assoc]

/-! ## Depth -/

/-- The level that a query reaches from a level on is that level and the rest of its height. -/
theorem depthFrom_eq (q : Query) (level best : Nat) :
    q.depthFrom level best = max best (level + q.height - 1) := by
  induction q generalizing level best with
  | comparison c => rfl
  | not inner ih =>
    rw [depthFrom, ih, height]
    omega
  | logical op left right ihleft ihright =>
    rw [depthFrom, ihright, ihleft, height]
    omega

/-- Every query has a height. -/
theorem height_pos (q : Query) : 0 < q.height := by
  cases q <;> simp only [height] <;> omega

/-- Pending queries reach what each of them reaches. -/
theorem deepestPending_eq (pending : List (Query × Nat)) (best : Nat) :
    deepestPending pending best =
      pending.foldl (fun best part => part.1.depthFrom part.2 best) best := by
  fun_induction deepestPending pending best with
  | case1 => rfl
  | case2 c level pending best ih => exact ih
  | case3 inner level pending best ih =>
    have hpos := inner.height_pos
    rw [ih, List.foldl_cons, List.foldl_cons]
    congr 1
    simp only [depthFrom_eq, height]
    omega
  | case4 op left right level pending best ih =>
    -- The right part comes first here, but which of two levels is larger does not depend on that.
    have hpos := left.height_pos
    rw [ih, List.foldl_cons, List.foldl_cons, List.foldl_cons]
    congr 1
    simp only [depthFrom_eq, height]
    omega

/-! ## Outlines -/

/-- The lines of pending queries are written behind what has been written. -/
theorem outlinePending_eq (places : Bool) (pending : List (Query × Nat)) (written : String) :
    outlinePending places pending written =
      written ++ String.join (pending.foldr (fun item => item.1.outlineThen places item.2) []) := by
  fun_induction outlinePending places pending written with
  | case1 written => exact (String.append_empty).symm
  | case2 op left right level pending written ih =>
    rw [ih, List.foldr_cons, List.foldr_cons, List.foldr_cons, outlineThen, String.join_cons,
      String.append_assoc]
  | case3 inner level pending written ih =>
    rw [ih, List.foldr_cons, List.foldr_cons, outlineThen, String.join_cons, String.append_assoc]
  | case4 c level pending written ih =>
    rw [ih, List.foldr_cons, outlineThen, String.join_append, String.append_assoc]

/-- The loop writes the outline of a query. -/
theorem outlinePending_outline (places : Bool) (q : Query) :
    outlinePending places [(q, 1)] (outlineLine 0 "Query") = q.outline places := by
  rw [outlinePending_eq, outline, String.join_cons]
  rfl

/-! ## Chains -/

/-- A chain starts with a condition that is no chain. -/
theorem isLogical_chainThen (q : Query) (rest : List (LogicalOp × Query)) :
    (q.chainThen rest).1.isLogical = false := by
  induction q generalizing rest with
  | comparison c => rfl
  | not inner => rfl
  | logical op left right ihleft => exact ihleft _

/-- Joining the conditions of a chain from the left goes on with what was unrolled before. -/
theorem foldl_chainThen {α : Type u} (f : α → LogicalOp × Query → α) (g : Query → α)
    (hg : ∀ op left right, g (.logical op left right) = f (g left) (op, right)) (q : Query)
    (rest : List (LogicalOp × Query)) :
    (q.chainThen rest).2.foldl f (g (q.chainThen rest).1) = rest.foldl f (g q) := by
  induction q generalizing rest with
  | comparison c => rfl
  | not inner => rfl
  | logical op left right ihleft =>
    rw [chainThen, ihleft, List.foldl_cons, hg]

/-! ## Text -/

/-- The text of a query comes in front of the pieces that follow it. -/
theorem join_piecesThen (q : Query) (rest : List String) :
    String.join (q.piecesThen rest) = q.recursiveText ++ String.join rest := by
  induction q generalizing rest with
  | comparison c => rw [piecesThen, recursiveText, String.join_cons]
  | not inner ih =>
    cases hlogical : inner.isLogical with
    | false => simp [piecesThen, recursiveText, parenthesized, hlogical, ih, String.append_assoc]
    | true =>
      have hopening : "NOT (" = "NOT " ++ "(" := rfl
      rw [piecesThen, if_pos hlogical, String.join_cons, ih, String.join_cons, hopening]
      simp only [recursiveText, parenthesized, hlogical, if_true, String.append_assoc]
  | logical op left right ihleft ihright =>
    cases hlogical : right.isLogical <;>
      simp [piecesThen, recursiveText, parenthesized, hlogical, ihleft, ihright,
        String.append_assoc]

/-- The text of a query is made up of the texts of its parts. -/
theorem text_eq (q : Query) : q.text = q.recursiveText := by
  rw [text, join_piecesThen, String.join_nil, String.append_empty]

/-- The text of a chain behind what is there of it, with the text of one more condition. -/
def linkText (before : String) (link : LogicalOp × Query) : String :=
  before ++ " " ++ link.1.text ++ " " ++ parenthesized link.2.isLogical link.2.text

/-! ## All walks -/

/-- Every walk through a query comes to what the structure of the query says, whatever its shape:
visiting goes through the conditions in preorder, the comparisons are the leaves from left to right,
the depth is the height, a chain starts with no chain and makes up the query again when it is joined
from the left, and the text is that of the parts, those in parentheses that have to be. -/
theorem walks_eq_recursion (q : Query) :
    (∀ (σ : Type u) (visit : σ → Query → σ) (state : σ),
      walk visit [q] state = q.preorder.foldl visit state) ∧
    q.nodes = q.preorder ∧
    walk collect [q] [] = q.leaves ∧ q.comparisons = q.leaves ∧
    deepestPending [(q, 1)] 0 = q.height ∧ q.depth = q.height ∧
    q.chain.1.isLogical = false ∧
    q.chain.2.foldl (fun left link => .logical link.1 left link.2) q.chain.1 = q ∧
    q.text = q.recursiveText ∧ q.text = q.chain.2.foldl linkText q.chain.1.text := by
  have hwalk : ∀ (σ : Type u) (visit : σ → Query → σ) (state : σ),
      walk visit [q] state = q.preorder.foldl visit state := fun σ visit state => by
    rw [walk_eq_foldl, List.flatMap_singleton]
  have hnodes : q.nodes = q.preorder := (q.nodesThen_eq []).trans (List.append_nil _)
  have hcollect : walk collect [q] [] = q.leaves := by
    rw [walk_eq_foldl, List.flatMap_singleton, foldl_collect_preorder, List.nil_append]
  have hdepth : q.depth = q.height := by
    rw [depth, depthFrom_eq]
    omega
  have hchain := foldl_chainThen (fun left link => .logical link.1 left link.2) id
    (fun op left right => rfl) q []
  have htext := foldl_chainThen linkText text (fun op left right => by
    simp only [linkText, text_eq, recursiveText]) q []
  have hpending : deepestPending [(q, 1)] 0 = q.height := (deepestPending_eq _ 0).trans hdepth
  exact ⟨hwalk, hnodes, hcollect, q.comparisons_eq_leaves, hpending, hdepth,
    q.isLogical_chainThen [], hchain, q.text_eq, htext.symm⟩

end ResumeFilter.Query
