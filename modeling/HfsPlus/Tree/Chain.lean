import HfsPlus.Tree.Search

/-!
# Following the nodes of a level

The nodes of a level are chained from left to right, and zero ends the chain. A
chain that goes on after one node more than the tree has can only be a circle, and
is given up with an error. The steps along a chain are counted in a word as wide as
that number of nodes, so in a tree that claims as many nodes as the word can count
no step is one too many, and the count overflows first.

`walk` shows each node of a chain to a visitor. A `Cursor` goes through the
records of a chain of leaves and hands out one at a time, an error in place of a
record that cannot be read. After an error of the chain itself a cursor is at its
end. `fold` runs a cursor until it ends or the visitor has enough.

A cursor carries how many links it has followed; every step follows a link or uses
up a record, which is why running a cursor ends.
-/

namespace HfsPlus

/-- A place in a chain of leaves. -/
structure Cursor where
  /-- The leaf whose records come next; none at the end. -/
  node : Option Node
  /-- The record that comes next. -/
  index : Nat
  /-- How many links were followed. -/
  steps : UInt32

/-- How many steps the current leaf is still good for. -/
def Cursor.remaining (cursor : Cursor) : Nat :=
  match cursor.node with
  | none => 0
  | some node => node.count - cursor.index + 1

/-- One cursor is further on than another: it has followed more links, or is
further on in its leaf. -/
def Cursor.Beyond (next cursor : Cursor) : Prop :=
  cursor.steps < next.steps ∨ next.steps = cursor.steps ∧ next.remaining < cursor.remaining

/-- What a cursor hands out: nothing more, or an item and the cursor behind it. -/
inductive Cursor.Step (α : Type) (cursor : Cursor) where
  | ended (last : Cursor)
  | item (item : Except Error α) (next : Cursor) (beyond : next.Beyond cursor)

/-- The cursor after a step. -/
def Cursor.Step.next {α : Type} {cursor : Cursor} : Cursor.Step α cursor → Cursor
  | ended last => last
  | item _ next _ => next

namespace Access

variable {m : Type → Type} [Monad m] {Key Value : Type}

/-- Show the nodes of a chain to a visitor until the chain ends or the visitor says
false, with some steps taken before. The visitor's state is kept whatever happens. -/
def walkAfter {σ : Type} (access : Access m Key Value) (verified : Bool)
    (visit : σ → Node → m (σ × Except Error Bool)) (steps current : UInt32) (state : σ) :
    m (σ × Except Error Unit) :=
  if current = 0 then return (state, .ok ())
  else if access.tree.header.totalNodes < steps then
    return (state, .error (access.tree.corrupt current .chainTooLong))
  else do
    match ← (access.node verified current).run with
    | .error cause => return (state, .error cause)
    | .ok node =>
      match ← visit state node with
      | (state, .error cause) => return (state, .error cause)
      | (state, .ok false) => return (state, .ok ())
      | (state, .ok true) =>
        match _counted : checkedNext steps with
        | .error cause => return (state, .error cause)
        | .ok further => walkAfter access verified visit further node.forwardLink state
termination_by UInt32.size - steps.toNat
decreasing_by
  have below : steps.toNat < UInt32.size := steps.toNat_lt
  have oneMore := checkedNext_eq_ok.mp _counted
  omega

/-- Show the nodes of the chain that starts at a node to a visitor. -/
def walk {σ : Type} (access : Access m Key Value) (verified : Bool)
    (visit : σ → Node → m (σ × Except Error Bool)) (start : UInt32) (state : σ) :
    m (σ × Except Error Unit) :=
  access.walkAfter verified visit 0 start state

/-- A cursor at a place, at the end if there is no place. -/
def recordsFrom (access : Access m Key Value) (position : Option Position) :
    ExceptT Error m Cursor :=
  match position with
  | none => return ⟨none, 0, 0⟩
  | some position => do
    let node ← access.node true position.node
    return ⟨some node, position.index, 0⟩

/-- Where the first record of the tree is. -/
def firstPosition (access : Access m Key Value) : Option Position :=
  if !access.tree.isEmpty && access.tree.header.firstLeafNode != 0 then
    some ⟨access.tree.header.firstLeafNode, 0⟩
  else none

/-- A cursor at the first record of the tree. -/
def first (access : Access m Key Value) : ExceptT Error m Cursor :=
  access.recordsFrom access.firstPosition

/-- Look in a leaf, and in the leaves behind it, for the next record. -/
def nextIn (access : Access m Key Value) (steps : UInt32) (node : Node) (index : Nat) :
    m (Cursor.Step (Key × Value) ⟨some node, index, steps⟩) :=
  if inside : index < node.count then
    return .item (access.tree.leafRecord node index) ⟨some node, index + 1, steps⟩
      (.inr ⟨rfl, by simp only [Cursor.remaining]; omega⟩)
  else if node.forwardLink = 0 then return .ended ⟨none, index, steps⟩
  else
    match counted : checkedNext steps with
    | .error cause =>
      return .item (.error cause) ⟨none, index, steps⟩ (.inr ⟨rfl, by simp [Cursor.remaining]⟩)
    | .ok further => do
      have more : steps < further := by
        rw [UInt32.lt_iff_toNat_lt, checkedNext_eq_ok.mp counted]
        exact Nat.lt_succ_self _
      let stopped (cause : Error) : Cursor.Step (Key × Value) ⟨some node, index, steps⟩ :=
        .item (.error cause) ⟨none, index, further⟩ (.inl more)
      if access.tree.header.totalNodes < further then
        return stopped (access.tree.corrupt node.number .chainTooLong)
      match ← (access.node true node.forwardLink).run with
      | .error cause => return stopped cause
      | .ok next =>
        if next.kind = .leaf then
          match ← nextIn access further next 0 with
          | .ended last => return .ended last
          | .item item cursor beyond =>
            return .item item cursor (.inl (by
              rcases beyond with later | ⟨same, _⟩
              · exact UInt32.lt_trans more later
              · exact same ▸ more))
        else return stopped (access.tree.corrupt node.forwardLink (.notLeaf next.kind))
termination_by UInt32.size - steps.toNat
decreasing_by
  have below : steps.toNat < UInt32.size := steps.toNat_lt
  have oneMore := checkedNext_eq_ok.mp counted
  omega

/-- The next record of a cursor, and the cursor behind it. -/
def next (access : Access m Key Value) : (cursor : Cursor) → m (Cursor.Step (Key × Value) cursor)
  | ⟨none, index, steps⟩ => return .ended ⟨none, index, steps⟩
  | ⟨some node, index, steps⟩ => access.nextIn steps node index

/-- Run a cursor through a visitor, which says false when it has enough. -/
def fold {σ : Type} (access : Access m Key Value)
    (visit : σ → Except Error (Key × Value) → σ × Bool) (state : σ) (cursor : Cursor) : m σ := do
  match ← access.next cursor with
  | .ended _ => return state
  | .item item next _beyond =>
    match visit state item with
    | (state, true) => fold access visit state next
    | (state, false) => return state
termination_by (UInt32.size - cursor.steps.toNat, cursor.remaining)
decreasing_by
  rcases _beyond with later | ⟨same, fewer⟩
  · have below : next.steps.toNat < UInt32.size := next.steps.toNat_lt
    have more := UInt32.lt_iff_toNat_lt.mp later
    exact Prod.Lex.left _ _ (by omega)
  · rw [same]
    exact Prod.Lex.right _ fewer

end Access

end HfsPlus
