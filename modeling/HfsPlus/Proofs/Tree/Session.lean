import HfsPlus.Proofs.Tree.Caching

/-!
# Sessions with a tree

A session puts request after request to one open tree: for a node, sound or damaged,
for a record, for a walk along a chain, for a cursor, and for the next record of any
cursor opened so far, so that cursors may take turns with each other and with all other
requests. The replies are everything that a caller gets to see.

The replies of a session do not depend on the cache that the tree is reached through.
-/

namespace HfsPlus

/-- What can be asked of an open tree. -/
inductive Tree.Request (Key : Type) where
  /-- A node; a damaged one too unless it has to be verified. -/
  | node (verified : Bool) (number : UInt32)
  | search (key : Key)
  | find (key : Key)
  /-- The nodes of a chain, for a visitor that knows which nodes it was shown before. -/
  | walk (verified : Bool) (start : UInt32) (visit : List Node → Node → Except Error Bool)
  /-- A cursor at the first record. -/
  | iterate
  /-- A cursor at a place. -/
  | recordsFrom (position : Option Position)
  /-- The next record of a cursor, counted in the order in which they were opened. -/
  | next (cursor : Nat)

/-- What a tree has to say to a request. -/
inductive Tree.Reply (Key Value : Type) where
  | node (outcome : Except Error Node)
  | searched (outcome : Except Error SearchResult)
  | found (outcome : Except Error (Option (Key × Value)))
  | walked (shown : List Node) (outcome : Except Error Unit)
  | opened (outcome : Except Error Cursor)
  | record (item : Option (Except Error (Key × Value)))

variable {Key Value : Type}

namespace Access

variable {m : Type → Type} [Monad m]

/-- Reply to a request, with some cursors open. -/
def answer (access : Access m Key Value) (cursors : List Cursor) :
    Tree.Request Key → m (Tree.Reply Key Value × List Cursor)
  | .node verified number => do
    return (.node (← (access.node verified number).run), cursors)
  | .search key => do
    return (.searched (← (access.search key).run), cursors)
  | .find key => do
    return (.found (← (access.find key).run), cursors)
  | .walk verified start visit => do
    let (shown, outcome) ← access.walk verified
      (fun shown node => return (shown ++ [node], visit shown node)) start []
    return (.walked shown outcome, cursors)
  | .iterate => do
    let outcome ← access.first.run
    return (.opened outcome, cursors ++ outcome.toOption.toList)
  | .recordsFrom position => do
    let outcome ← (access.recordsFrom position).run
    return (.opened outcome, cursors ++ outcome.toOption.toList)
  | .next index => do
    match cursors[index]? with
    | none => return (.record none, cursors)
    | some cursor =>
      match ← access.next cursor with
      | .ended last => return (.record none, cursors.set index last)
      | .item item next _ => return (.record (some item), cursors.set index next)

/-- The replies to requests that are put one after the other. -/
def replies (access : Access m Key Value) : List Cursor → List (Tree.Request Key) →
    m (List (Tree.Reply Key Value))
  | _, [] => return []
  | cursors, request :: later => do
    let (reply, cursors) ← access.answer cursors request
    return reply :: (← access.replies cursors later)

end Access

section Agreeing

variable {M N : Type → Type} [Monad M] [Monad N] [Logging M] [Logging N]
variable [LawfulMonad M] [LawfulMonad N] {agreement : Agreement M N}
variable {left : Access M Key Value} {right : Access N Key Value}
variable (same : agreement.Accesses left right)
include same

/-- Agreeing nodes lead to the same reply and leave the same cursors. -/
theorem Agreement.Accesses.answer (cursors : List Cursor) (request : Tree.Request Key) :
    agreement.holds Eq (left.answer cursors request) (right.answer cursors request) := by
  cases request with
  | node verified number =>
    exact agreement.holds_next (agreement.holds_run (same.node verified number)) fun _ =>
      agreement.holds_same _
  | search key =>
    exact agreement.holds_next (agreement.holds_run (same.search key)) fun _ =>
      agreement.holds_same _
  | find key =>
    exact agreement.holds_next (agreement.holds_run (same.find key)) fun _ =>
      agreement.holds_same _
  | walk verified start visit =>
    exact agreement.holds_next
      (same.walk verified (fun _ _ => agreement.holds_same _) start []) fun _ =>
      agreement.holds_same _
  | iterate =>
    exact agreement.holds_next (agreement.holds_run same.first) fun _ => agreement.holds_same _
  | recordsFrom position =>
    exact agreement.holds_next (agreement.holds_run (same.recordsFrom position)) fun _ =>
      agreement.holds_same _
  | next index =>
    unfold Access.answer
    dsimp only
    cases cursors[index]? with
    | none => exact agreement.holds_same _
    | some cursor =>
      refine agreement.holds_next (same.next cursor) ?_
      rintro (last | ⟨item, next, beyond⟩) <;> exact agreement.holds_same _

/-- Agreeing nodes lead to the same replies throughout a session. -/
theorem Agreement.Accesses.replies (cursors : List Cursor) (requests : List (Tree.Request Key)) :
    agreement.holds Eq (left.replies cursors requests) (right.replies cursors requests) := by
  induction requests generalizing cursors with
  | nil => exact agreement.holds_same _
  | cons request later inductionHypothesis =>
    refine agreement.holds_next (same.answer cursors request) ?_
    rintro ⟨reply, stillOpen⟩
    exact agreement.holds_next (inductionHypothesis stillOpen) fun _ => agreement.holds_same _

end Agreeing

namespace Tree

variable (tree : Tree Key Value)

/-- A session through a cache that keeps nothing but stored nodes gets the replies of a
session without a cache, and leaves such a cache behind. -/
theorem Keeps.replies {cache : RecencyCache Node} (kept : tree.Keeps cache)
    (cursors : List Cursor) (requests : List (Tree.Request Key)) :
    (((tree.cached (m := Id)).replies cursors requests).run cache).1 =
        ((tree.direct (m := Id)).replies cursors requests).run ∧
      tree.Keeps (((tree.cached (m := Id)).replies cursors requests).run cache).2 :=
  tree.cached_direct.replies cursors requests cache kept

/-- A node that was handed out as verified can be read in full: every record of a leaf,
with its key and its value, and every entry of an index node, with its key and child. -/
def Readable (node : Node) : Prop :=
  (node.kind = .leaf → ∀ index < node.count, ∃ record, tree.leafRecord node index = .ok record) ∧
    (node.kind = .index → ∀ index < node.count, ∃ entry, tree.indexRecord node index = .ok entry)

/-- A verified node is readable. -/
theorem readable_of_verified {node : Node} (verified : tree.verify node = .ok ()) :
    tree.Readable node := by
  constructor
  · intro leaf index inside
    rw [← length_recordsOf verified leaf] at inside
    exact ⟨_, leafRecord_of_verified verified leaf index inside⟩
  · intro kind index inside
    rw [← length_entriesOf verified kind] at inside
    exact ⟨_, indexRecord_of_verified verified kind index inside⟩

/-- A node whose records cannot all be read is refused when it has to be verified. -/
theorem stored_of_damaged {number : UInt32} {node : Node} {cause : Error}
    (parsed : tree.parsed number = .ok node) (damaged : tree.verify node = .error cause) :
    tree.stored number = .error cause := by
  rw [tree.stored_of_parsed parsed, damaged]
  rfl

/-- **Caches cannot be noticed.** Whatever the bytes of a tree are and whatever is asked
of it, the replies through a cache are those through a cache without room. After the
session every request is replied to as by a tree just opened. In particular no damaged
node that was handed out makes a later request for the verified node succeed, and every
verified node that is handed out is readable. -/
theorem cache_unnoticed (capacity : Nat) (requests : List (Tree.Request Key)) :
    let cached := tree.cached (m := Id)
    let session := (cached.replies [] requests).run (.empty capacity)
    session.1 = ((cached.replies [] requests).run (.empty 0)).1 ∧
      (∀ cursors request, ((cached.answer cursors request).run session.2).1 =
        ((cached.answer cursors request).run (.empty 0)).1) ∧
      (∀ number damaged cause,
        ((cached.node false number).run.run session.2).1 = .ok damaged →
        tree.verify damaged = .error cause →
        ((cached.node true number).run.run session.2).1 = .error cause) ∧
      ∀ number node, ((cached.node true number).run.run session.2).1 = .ok node →
        tree.Readable node := by
  intro cached session
  obtain ⟨same, kept⟩ := (tree.keeps_empty capacity).replies tree [] requests
  obtain ⟨sameWithout, _⟩ := (tree.keeps_empty 0).replies tree [] requests
  have handedOut : ∀ verified number, ((cached.node verified number).run.run session.2).1 =
      if verified then tree.stored number else tree.parsed number := by
    intro verified number
    rw [← direct_node]
    exact (kept.node verified number).1
  refine ⟨same.trans sameWithout.symm, ?_, ?_, ?_⟩
  · intro cursors request
    have after := (tree.cached_direct.answer cursors request session.2 kept).1
    have anew := (tree.cached_direct.answer cursors request _ (tree.keeps_empty 0)).1
    exact after.trans anew.symm
  · intro number damaged cause found unreadable
    rw [handedOut] at found ⊢
    exact tree.stored_of_damaged found unreadable
  · intro number node found
    rw [handedOut] at found
    exact tree.readable_of_verified (tree.stored_eq_ok.mp found).2

end Tree

end HfsPlus
