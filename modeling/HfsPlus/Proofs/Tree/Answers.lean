import HfsPlus.Proofs.Fork.Answers
import HfsPlus.Tree.Chain

/-!
# Answers depend on nodes alone

Searching a tree, walking a chain of its nodes and running a cursor reach the tree
through an `Access` and nowhere else. So if two accesses to one tree get agreeing
nodes, then everything that is asked of them has agreeing answers, and a visitor that
behaves alike on both sides is shown the same nodes.
-/

namespace HfsPlus

variable {M N : Type → Type} [Monad M] [Monad N] [Logging M] [Logging N]
variable [LawfulMonad M] [LawfulMonad N] {Key Value : Type}

/-- A node is read from its stream alike everywhere. -/
theorem Agreement.fetch (agreement : Agreement M N) (tree : Tree Key Value) (verified : Bool)
    (number : UInt32) :
    (agreement.exceptT Error).holds Eq (tree.fetch verified number : ExceptT Error M (Node × Bool))
      (tree.fetch verified number) := by
  refine holds_next _ (agreement.stream_readExact _ _ _) fun bytes => ?_
  refine holds_next _ (agreement.holds_outcome _) fun node => ?_
  cases tree.verify node with
  | ok done => exact holds_noted _ _ (holds_same _ _)
  | error cause =>
    dsimp only
    split
    · exact agreement.holds_refused cause
    · exact holds_noted _ _ (holds_same _ _)

/-- Two accesses are to one tree and get agreeing nodes. -/
structure Agreement.Accesses (agreement : Agreement M N) (left : Access M Key Value)
    (right : Access N Key Value) : Prop where
  tree : left.tree = right.tree
  node : ∀ verified number, (agreement.exceptT Error).holds Eq
    (left.node verified number) (right.node verified number)

namespace Agreement.Accesses

variable {agreement : Agreement M N} {left : Access M Key Value} {right : Access N Key Value}
variable (same : agreement.Accesses left right)
include same

/-- Both descents take the same way down, since each step is decided by a node that
both got. Induct over the levels that are left. -/
theorem descend (key : Key) (levels : Nat) (current : UInt32) :
    (agreement.exceptT Error).holds Eq (left.descend key levels current)
      (right.descend key levels current) := by
  induction levels generalizing current with
  | zero =>
    simp only [Access.descend, Access.levels, same.tree]
    exact agreement.holds_throw _
  | succ levels inductionHypothesis =>
    simp only [Access.descend, same.tree]
    refine holds_next _ (same.node true current) fun node => ?_
    cases node.kind with
    | leaf => exact holds_next _ (agreement.holds_outcome _) fun _ => holds_same _ _
    | index =>
      dsimp only
      split
      · exact agreement.holds_refused _
      · refine holds_next _ (agreement.holds_outcome _) fun _ => ?_
        exact holds_next _ (agreement.holds_outcome _) fun record => inductionHypothesis record.2
    | header => exact agreement.holds_throw _
    | map => exact agreement.holds_throw _

/-- Searches find the same place. -/
theorem search (key : Key) :
    (agreement.exceptT Error).holds Eq (left.search key) (right.search key) := by
  simp only [Access.search, Access.levels, same.tree]
  split
  · exact holds_same _ _
  · exact same.descend key _ _

/-- Searches for a record find the same one. -/
theorem find (key : Key) :
    (agreement.exceptT Error).holds Eq (left.find key) (right.find key) := by
  simp only [Access.find, same.tree]
  refine holds_next _ (same.search key) fun result => ?_
  cases result.position with
  | none => exact holds_same _ _
  | some position =>
    dsimp only
    split
    · refine holds_next _ (same.node true position.node) fun node => ?_
      exact holds_map _ _ _ (agreement.holds_outcome _) fun _ _ equal => congrArg some equal
    · exact holds_same _ _

/-- Visitors that behave alike are shown the same nodes, and both walks end alike. The induction is
on the steps that were taken. -/
theorem walkAfter {σ : Type} (verified : Bool)
    {visitLeft : σ → Node → M (σ × Except Error Bool)}
    {visitRight : σ → Node → N (σ × Except Error Bool)}
    (alike : ∀ state node, agreement.holds Eq (visitLeft state node) (visitRight state node))
    (steps current : UInt32) (state : σ) :
    agreement.holds Eq (left.walkAfter verified visitLeft steps current state)
      (right.walkAfter verified visitRight steps current state) := by
  induction steps using checkedNext_induction generalizing current state with
  | count steps inductionHypothesis =>
    rw [Access.walkAfter, Access.walkAfter, same.tree]
    split
    · exact agreement.holds_same _
    split
    · exact agreement.holds_same _
    refine agreement.holds_next (agreement.holds_run (same.node verified current)) ?_
    rintro (cause | node)
    · exact agreement.holds_same _
    refine agreement.holds_next (alike state node) ?_
    rintro ⟨next, cause | _ | _⟩
    · exact agreement.holds_same _
    · exact agreement.holds_same _
    dsimp only
    split
    · exact agreement.holds_same _
    next further counted => exact inductionHypothesis further counted node.forwardLink next

/-- Walks along a whole chain end alike. -/
theorem walk {σ : Type} (verified : Bool)
    {visitLeft : σ → Node → M (σ × Except Error Bool)}
    {visitRight : σ → Node → N (σ × Except Error Bool)}
    (alike : ∀ state node, agreement.holds Eq (visitLeft state node) (visitRight state node))
    (start : UInt32) (state : σ) :
    agreement.holds Eq (left.walk verified visitLeft start state)
      (right.walk verified visitRight start state) := by
  exact same.walkAfter verified alike 0 start state

/-- Cursors are put at the same leaf. -/
theorem recordsFrom (position : Option Position) :
    (agreement.exceptT Error).holds Eq (left.recordsFrom position)
      (right.recordsFrom position) := by
  cases position with
  | none => exact holds_same _ _
  | some position => exact holds_next _ (same.node true position.node) fun node => holds_same _ _

/-- Cursors start at the same first record. -/
theorem first : (agreement.exceptT Error).holds Eq left.first right.first := by
  simp only [Access.first, Access.firstPosition, same.tree]
  exact same.recordsFrom _

/-- The next record is found in the same leaf of the chain. The induction is on the links that
were followed. -/
theorem nextIn (steps : UInt32) (node : Node) (index : Nat) :
    agreement.holds Eq (left.nextIn steps node index) (right.nextIn steps node index) := by
  induction steps using checkedNext_induction generalizing node index with
  | count steps inductionHypothesis =>
    rw [Access.nextIn, Access.nextIn, same.tree]
    split
    · exact agreement.holds_same _
    split
    · exact agreement.holds_same _
    split
    · exact agreement.holds_same _
    next further counted =>
      dsimp only
      split
      · exact agreement.holds_same _
      refine agreement.holds_next (agreement.holds_run (same.node true node.forwardLink)) ?_
      rintro (cause | next)
      · exact agreement.holds_same _
      dsimp only
      split
      · refine agreement.holds_next (inductionHypothesis further counted next 0) ?_
        rintro (last | ⟨item, cursor, beyond⟩) <;> exact agreement.holds_same _
      · exact agreement.holds_same _

/-- Cursors take the same step. -/
theorem next (cursor : Cursor) : agreement.holds Eq (left.next cursor) (right.next cursor) := by
  obtain ⟨_ | node, index, steps⟩ := cursor
  · exact agreement.holds_same _
  · exact same.nextIn steps node index

/-- A visitor of records is shown the same records. The induction follows the cursor,
which every step brings nearer to its end. -/
theorem fold {σ : Type} (visit : σ → Except Error (Key × Value) → σ × Bool) (state : σ)
    (cursor : Cursor) :
    agreement.holds Eq (left.fold visit state cursor) (right.fold visit state cursor) := by
  induction state, cursor using Access.fold.induct with
  | case1 state cursor inductionHypothesis =>
    rw [Access.fold, Access.fold]
    refine agreement.holds_next (same.next cursor) ?_
    rintro (last | ⟨item, next, beyond⟩)
    · exact agreement.holds_same _
    · dsimp only
      rcases visit state item with ⟨state, _ | _⟩
      · exact agreement.holds_same _
      · exact inductionHypothesis next beyond state

end Agreement.Accesses

end HfsPlus
