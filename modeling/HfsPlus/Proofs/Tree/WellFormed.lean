import HfsPlus.Proofs.Tree.Node
import HfsPlus.Tree.Chain

/-!
# Well-formed trees

A tree is well-formed when its nodes say consistently where which key belongs. The
nodes under the root then are a tree in the usual sense, `Tree.Spans`: every node in it
can be read, each index node leads to a subtree for each of its keys, and its keys tell
the subtrees apart. A key of a subtree is not before the key that leads there, except in
the leftmost one, and is before the next. The leaves are chained in the same order,
`Linked`, and all keys ascend along them.

How many levels and how many records there are is up to the tree.
-/

namespace HfsPlus

namespace Tree

/-- A chain of nodes, followed by their forward links until they end. -/
def Linked : (start : UInt32) → List Node → Prop
  | start, [] => start = 0
  | start, node :: behind => start ≠ 0 ∧ start = node.number ∧ Linked node.forwardLink behind

/-- The chain goes on behind any part of it. -/
theorem Linked.of_append {start : UInt32} {before behind : List Node} {node : Node}
    (linked : Linked start (before ++ node :: behind)) : Linked node.number (node :: behind) := by
  induction before generalizing start with
  | nil =>
    obtain ⟨nonzero, same, rest⟩ := linked
    exact ⟨same ▸ nonzero, rfl, rest⟩
  | cons first before inductionHypothesis => exact inductionHypothesis linked.2.2

variable {Key Value : Type} (tree : Tree Key Value)

/-- The records of some leaves, from left to right. -/
def recordsIn (leaves : List Node) : List (Key × Value) := leaves.flatMap tree.recordsOf

/-- One key is strictly before another. -/
def Before (left right : Key) : Prop := tree.schema.compare left right = .lt

/-- The keys of an index node tell the leaves of its subtrees apart. -/
structure Separates (entries : List (Key × UInt32)) (parts : List (List Node)) : Prop where
  /-- A key under an entry is before the key of the next entry. -/
  below : ∀ place part next, parts[place]? = some part → entries[place + 1]? = some next →
    ∀ record ∈ tree.recordsIn part, tree.Before record.1 next.1
  /-- A key under an entry is not before the key of this entry, except under the first. -/
  above : ∀ place part entry, 0 < place → parts[place]? = some part →
    entries[place]? = some entry → ∀ record ∈ tree.recordsIn part, ¬ tree.Before record.1 entry.1

/-- The leaves under a node of so many levels at most, from left to right. -/
inductive Spans : (levels : Nat) → UInt32 → List Node → Prop
  | leaf {levels : Nat} {number : UInt32} {node : Node} :
    tree.stored number = .ok node → node.kind = .leaf → Spans (levels + 1) number [node]
  | index {levels : Nat} {number : UInt32} {node : Node} {parts : List (List Node)} :
    tree.stored number = .ok node → node.kind = .index → tree.entriesOf node ≠ [] →
    (tree.entriesOf node).Pairwise (fun left right => tree.Before left.1 right.1) →
    parts.length = (tree.entriesOf node).length →
    (∀ (place : Nat) (entry : Key × UInt32) (part : List Node), (tree.entriesOf node)[place]? = some entry →
      parts[place]? = some part → Spans levels entry.2 part) →
    tree.Separates (tree.entriesOf node) parts →
    Spans (levels + 1) number parts.flatten

/-- The nodes of a tree say consistently where which key belongs; these are its leaves. -/
structure WellFormed (leaves : List Node) : Prop where
  rooted : tree.header.rootNode ≠ 0
  occupied : tree.header.leafRecords ≠ 0
  started : tree.header.firstLeafNode ≠ 0
  spans : tree.Spans (tree.header.treeDepth.toNat + 1) tree.header.rootNode leaves
  linked : Linked tree.header.firstLeafNode leaves
  ascending : (tree.recordsIn leaves).Pairwise fun left right => tree.Before left.1 right.1

/-- Nodes of a chain of leaves, each stored under its own number. -/
def Leaves (nodes : List Node) : Prop :=
  ∀ node ∈ nodes, tree.stored node.number = .ok node ∧ node.kind = .leaf

variable {tree}

/-- No nodes hold no records. -/
@[simp] theorem recordsIn_nil : tree.recordsIn [] = [] := rfl

/-- The records of the first node come first. -/
@[simp] theorem recordsIn_cons (node : Node) (behind : List Node) :
    tree.recordsIn (node :: behind) = tree.recordsOf node ++ tree.recordsIn behind := rfl

/-- The records of nodes behind others come behind theirs. -/
@[simp] theorem recordsIn_append (left right : List Node) :
    tree.recordsIn (left ++ right) = tree.recordsIn left ++ tree.recordsIn right :=
  List.flatMap_append

/-- A node says the number that it is read under. -/
theorem number_of_parsed {number : UInt32} {node : Node} (parsed : tree.parsed number = .ok node) :
    node.number = number := by
  obtain ⟨_, _, read⟩ := bind_eq_ok.mp parsed
  obtain ⟨bytes, _, parsed⟩ := bind_eq_ok.mp read
  exact Node.number_of_parse parsed

/-- Only nodes within the range of the tree are read. -/
theorem inside_of_parsed {number : UInt32} {node : Node} (parsed : tree.parsed number = .ok node) :
    number < tree.header.totalNodes := by
  obtain ⟨_, inside, _⟩ := bind_eq_ok.mp parsed
  unfold Tree.checkRange at inside
  split at inside
  · simp at inside
  · rename_i within
    exact UInt32.not_le.mp within

/-- A node is stored under the number that it says. -/
theorem number_of_stored {number : UInt32} {node : Node} (stored : tree.stored number = .ok node) :
    node.number = number := number_of_parsed (tree.stored_eq_ok.mp stored).1

/-- Only nodes within the range of the tree are stored. -/
theorem inside_of_stored {number : UInt32} {node : Node} (stored : tree.stored number = .ok node) :
    number < tree.header.totalNodes := inside_of_parsed (tree.stored_eq_ok.mp stored).1

/-- What lies under a node are leaves. The induction follows the levels. -/
theorem Spans.leaves {levels : Nat} {number : UInt32} {leaves : List Node}
    (spans : tree.Spans levels number leaves) : tree.Leaves leaves := by
  induction spans with
  | leaf stored kind =>
    intro node member
    obtain rfl := List.mem_singleton.mp member
    exact ⟨number_of_stored stored ▸ stored, kind⟩
  | @index levels number node parts stored kind occupied ascending lengths below separates
      inductionHypothesis =>
    intro leaf member
    obtain ⟨part, chosen, inPart⟩ := List.mem_flatten.mp member
    obtain ⟨place, inside, rfl⟩ := List.mem_iff_getElem.mp chosen
    exact inductionHypothesis place _ _ (List.getElem?_eq_getElem (lengths ▸ inside))
      (List.getElem?_eq_getElem inside) leaf inPart

end Tree

end HfsPlus
