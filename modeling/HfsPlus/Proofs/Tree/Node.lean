import HfsPlus.Proofs.Outcome
import HfsPlus.Tree.Basic

/-!
# What a verified node holds

The stream of a tree determines each of its nodes. `Tree.parsed` is the node that the
bytes of a number spell, and `Tree.stored` the same node once every record in it was
read; these are what `Tree.direct` hands out. The records of a stored leaf and the
entries of a stored index node can be taken as whole lists, and every later reading of
one record, its key or its child gives the member of that list in its place.
-/

namespace HfsPlus

/-- A node says the number that it was read under. -/
theorem Node.number_of_parse {name : String} {number : UInt32} {bytes : Bytes} {node : Node}
    (parsed : Node.parse name number bytes = .ok node) : node.number = number := by
  obtain ⟨descriptor, _, parsed⟩ := bind_eq_ok.mp parsed
  obtain ⟨kind, _, parsed⟩ := bind_eq_ok.mp parsed
  dsimp only at parsed
  split at parsed
  · exact (throw_bind_ne_ok _ _ _ parsed).elim
  split at parsed
  · exact (throw_bind_ne_ok _ _ _ parsed).elim
  split at parsed
  · exact (throw_bind_ne_ok _ _ _ parsed).elim
  split at parsed
  · exact (throw_bind_ne_ok _ _ _ parsed).elim
  obtain ⟨⟩ := parsed
  rfl

namespace Tree

variable {Key Value : Type} (tree : Tree Key Value)

/-- The node of a number as its bytes spell it, before its records are read. -/
def parsed (number : UInt32) : Except Error Node := do
  tree.checkRange number
  let bytes ← (tree.stream.readExact (number.toNat * tree.nodeSize) tree.nodeSize :
    ExceptT Error Id Bytes)
  Node.parse tree.schema.name number bytes

/-- The node of a number, if every record in it can be read. -/
def stored (number : UInt32) : Except Error Node := do
  let node ← tree.parsed number
  tree.verify node
  return node

/-- A stored node is what its bytes spell, and all its records can be read. -/
theorem stored_eq_ok {number : UInt32} {node : Node} :
    tree.stored number = .ok node ↔
      tree.parsed number = .ok node ∧ tree.verify node = .ok () := by
  rw [stored, bind_eq_ok]
  constructor
  · rintro ⟨read, parsed, verified⟩
    obtain ⟨⟨⟩, sound, ⟨⟩⟩ := bind_eq_ok.mp verified
    exact ⟨parsed, sound⟩
  · rintro ⟨parsed, sound⟩
    exact ⟨node, parsed, bind_eq_ok.mpr ⟨(), sound, rfl⟩⟩

/-- A node whose bytes were read is stored as far as its records can be read. -/
theorem stored_of_parsed {number : UInt32} {node : Node} (parsed : tree.parsed number = .ok node) :
    tree.stored number = (tree.verify node).map fun _ => node := by
  rw [stored, parsed]
  change (tree.verify node >>= fun _ => .ok node) = _
  cases tree.verify node <;> rfl

/-- A node whose bytes cannot be read is not stored either. -/
theorem stored_of_refused {number : UInt32} {cause : Error}
    (refused : tree.parsed number = .error cause) : tree.stored number = .error cause := by
  rw [stored, refused]
  rfl

/-- Reading a node says what the bytes of its number spell, and whether every record
in it can be read. A node that fails this is an error only if it has to be verified. -/
theorem fetch_direct (verified : Bool) (number : UInt32)
    (inside : tree.checkRange number = .ok ()) :
    (tree.fetch verified number : ExceptT Error Id (Node × Bool)).run =
      (tree.parsed number).bind fun node =>
        match tree.verify node with
        | .ok () => .ok (node, true)
        | .error cause => if verified then .error cause else .ok (node, false) := by
  unfold Tree.fetch Tree.parsed
  rw [inside, run_bind_direct]
  change _ = ((tree.stream.readExact (number.toNat * tree.nodeSize) tree.nodeSize :
    ExceptT Error Id Bytes).run.bind (Node.parse tree.schema.name number)).bind _
  cases (tree.stream.readExact (number.toNat * tree.nodeSize) tree.nodeSize :
      ExceptT Error Id Bytes).run with
  | error cause => rfl
  | ok bytes =>
    dsimp only [Except.bind]
    rw [run_bind_direct]
    change (Node.parse tree.schema.name number bytes).bind _ = _
    cases Node.parse tree.schema.name number bytes with
    | error cause => rfl
    | ok node =>
      dsimp only [Except.bind]
      cases tree.verify node with
      | ok done => rfl
      | error cause => cases verified <;> rfl

/-- Access without a cache is access to the tree. -/
theorem direct_tree {m : Type → Type} [Monad m] [Logging m] : (tree.direct (m := m)).tree = tree :=
  rfl

/-- Without a cache a node is handed out as it is stored, or as its bytes spell it if
damaged nodes are asked for. -/
theorem direct_node (verified : Bool) (number : UInt32) :
    ((tree.direct (m := Id)).node verified number).run =
      if verified then tree.stored number else tree.parsed number := by
  cases inside : tree.checkRange number with
  | error cause =>
    have refused : tree.parsed number = .error cause := by rw [Tree.parsed, inside]; rfl
    rw [tree.stored_of_refused refused, refused]
    unfold Tree.direct
    dsimp only
    rw [run_bind_direct, inside]
    cases verified <;> rfl
  | ok done =>
    have fetched : ((tree.direct (m := Id)).node verified number).run =
        (tree.fetch verified number : ExceptT Error Id (Node × Bool)).run.bind
          fun found => .ok found.1 := by
      unfold Tree.direct
      dsimp only
      rw [run_bind_direct, inside]
      change (tree.fetch verified number >>= _ : ExceptT Error Id Node).run = _
      rw [run_bind_direct]
      rfl
    rw [fetched, tree.fetch_direct verified number inside]
    cases parsed : tree.parsed number with
    | error cause =>
      rw [tree.stored_of_refused parsed]
      cases verified <;> rfl
    | ok node =>
      rw [stored_of_parsed tree parsed]
      dsimp only [Except.bind]
      cases tree.verify node <;> cases verified <;> rfl

/-- The records of a leaf in their order, as far as all of them can be read. -/
def recordsOf (node : Node) : List (Key × Value) := (tree.leafRecords node).toOption.getD []

/-- The keys and children of an index node in their order, as far as all of them can
be read. -/
def entriesOf (node : Node) : List (Key × UInt32) := (tree.indexRecords node).toOption.getD []

variable {tree}

/-- Reading a record of a leaf includes reading its key. -/
theorem keyAt_of_leafRecord {node : Node} {index : Nat} {record : Key × Value}
    (read : tree.leafRecord node index = .ok record) : tree.keyAt node index = .ok record.1 := by
  obtain ⟨parts, split, rest⟩ := bind_eq_ok.mp read
  obtain ⟨key, decoded, rest⟩ := bind_eq_ok.mp rest
  obtain ⟨value, _, ⟨⟩⟩ := bind_eq_ok.mp rest
  exact bind_eq_ok.mpr ⟨parts, split, decoded⟩

/-- Reading an entry of an index node includes reading its key. -/
theorem keyAt_of_indexRecord {node : Node} {index : Nat} {entry : Key × UInt32}
    (read : tree.indexRecord node index = .ok entry) : tree.keyAt node index = .ok entry.1 := by
  obtain ⟨parts, split, rest⟩ := bind_eq_ok.mp read
  obtain ⟨key, decoded, rest⟩ := bind_eq_ok.mp rest
  have same : key = entry.1 := by
    split at rest
    · obtain ⟨⟩ := rest
      rfl
    · exact (throw_ne_ok _ _ rest).elim
  exact same ▸ bind_eq_ok.mpr ⟨parts, split, decoded⟩

section Leaf

variable {node : Node} (verified : tree.verify node = .ok ()) (leaf : node.kind = .leaf)
include verified leaf

/-- All records of a verified leaf can be read. -/
theorem leafRecords_of_verified : tree.leafRecords node = .ok (tree.recordsOf node) := by
  rw [Tree.verify, leaf] at verified
  cases read : tree.leafRecords node with
  | error cause => simp [read] at verified
  | ok records => simp [recordsOf, read, Except.toOption]

/-- A verified leaf has as many records as it says. -/
theorem length_recordsOf : (tree.recordsOf node).length = node.count :=
  (range_mapM_ok (leafRecords_of_verified verified leaf)).1

/-- Each record of a verified leaf is read as the member in its place. -/
theorem leafRecord_of_verified (index : Nat) (inside : index < (tree.recordsOf node).length) :
    tree.leafRecord node index = .ok ((tree.recordsOf node)[index]) :=
  (range_mapM_ok (leafRecords_of_verified verified leaf)).2 index inside

end Leaf

section Index

variable {node : Node} (verified : tree.verify node = .ok ()) (index : node.kind = .index)
include verified index

/-- All entries of a verified index node can be read. -/
theorem indexRecords_of_verified : tree.indexRecords node = .ok (tree.entriesOf node) := by
  rw [Tree.verify, index] at verified
  cases read : tree.indexRecords node with
  | error cause => simp [read] at verified
  | ok entries => simp [entriesOf, read, Except.toOption]

/-- A verified index node has as many entries as it says. -/
theorem length_entriesOf : (tree.entriesOf node).length = node.count :=
  (range_mapM_ok (indexRecords_of_verified verified index)).1

/-- Each entry of a verified index node is read as the member in its place. -/
theorem indexRecord_of_verified (place : Nat) (inside : place < (tree.entriesOf node).length) :
    tree.indexRecord node place = .ok ((tree.entriesOf node)[place]) :=
  (range_mapM_ok (indexRecords_of_verified verified index)).2 place inside

end Index

end Tree

end HfsPlus
