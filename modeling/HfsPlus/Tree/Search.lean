import HfsPlus.Tree.Basic

/-!
# Searching a tree

A search goes down from the root. In an index node it follows the last key that
is not greater than the one sought, or the first key if all are greater; in a
leaf it stops at an equal key, or where the key would have to be. A tree says how
deep it is, and the search allows for one level more before it gives up, so it
ends in every tree, however its nodes point to each other.

Within a node the keys are bisected. The bisection does not rely on the order of
the keys for its own result: what it reports about the neighbours of a place was
compared.
-/

namespace HfsPlus

/-- The place of a record, or of a gap between records. -/
structure Position where
  node : UInt32
  index : Nat
  deriving DecidableEq, Repr

/-- What a search found: the place of the key, or where it would have to be, and
which of both. An empty tree has no place. -/
structure SearchResult where
  position : Option Position
  found : Bool
  deriving DecidableEq, Repr

namespace Tree

variable {Key Value : Type}

/-- Bisect the records `low` to `high` for a key: the number of a record with an
equal key and true, or the number of keys before the key and false. -/
def bisect (tree : Tree Key Value) (node : Node) (key : Key) (low high : Nat) :
    Except Error (Nat × Bool) :=
  if low < high then do
    let middle := low + (high - low) / 2
    match tree.schema.compare (← tree.keyAt node middle) key with
    | .lt => bisect tree node key (middle + 1) high
    | .eq => return (middle, true)
    | .gt => bisect tree node key low middle
  else return (low, false)
termination_by high - low

/-- Bisect all records of a node. -/
def scan (tree : Tree Key Value) (node : Node) (key : Key) : Except Error (Nat × Bool) :=
  tree.bisect node key 0 node.count

end Tree

namespace Access

variable {m : Type → Type} [Monad m] {Key Value : Type}

/-- How many nodes a search visits at most. -/
def levels (access : Access m Key Value) : Nat := access.tree.header.treeDepth.toNat + 1

/-- Go down from a node, visiting at most `left` nodes. -/
def descend (access : Access m Key Value) (key : Key) :
    (left : Nat) → UInt32 → ExceptT Error m SearchResult
  | 0, current => throw (access.tree.corrupt current (.tooDeep access.levels))
  | left + 1, current => do
    let node ← access.node true current
    match node.kind with
    | .leaf =>
      let (index, found) ← access.tree.scan node key
      return ⟨some ⟨current, index⟩, found⟩
    | .index =>
      if node.count = 0 then throw (access.tree.corrupt current .emptyIndex)
      let (index, found) ← access.tree.scan node key
      let (_, child) ← access.tree.indexRecord node (if found then index else index - 1)
      descend access key left child
    | kind => throw (access.tree.corrupt current (.unexpectedKind kind))

/-- The place of a key in the leaves. -/
def search (access : Access m Key Value) (key : Key) : ExceptT Error m SearchResult :=
  if access.tree.isEmpty then return ⟨none, false⟩
  else access.descend key access.levels access.tree.header.rootNode

/-- The record whose key equals a key, if there is one. -/
def find (access : Access m Key Value) (key : Key) : ExceptT Error m (Option (Key × Value)) := do
  let result ← access.search key
  match result.position with
  | some position =>
    if result.found then
      let node ← access.node true position.node
      some <$> (access.tree.leafRecord node position.index : Except Error (Key × Value))
    else return none
  | none => return none

end Access

end HfsPlus
