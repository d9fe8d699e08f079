import HfsPlus.Proofs.Tree.Soundness
import HfsPlus.Proofs.Tree.Walk

/-!
# Which nodes an iteration reads

A cursor asks of each node that it goes on to whether it is a leaf. Of the node that it starts in it
does not ask. So what it hands out as a record is one of a leaf, or was read in the first node as if
that were one: an iteration that starts in a leaf yields nothing but records of leaves, and stops at
any other node. One that starts in an index node yields what its entries look like as records, keys
with the numbers of nodes for values.
-/

namespace HfsPlus

open HfsPlus.Tree (Request)

namespace Tree

variable {Key Value : Type} {tree : Tree Key Value}

/-- What a leaf that was got has for records is stored. -/
theorem stores_of_leafAt {number : UInt32} {leaf : Node} {record : Key × Value}
    (taken : tree.leafAt number = .ok leaf) (member : record ∈ tree.recordsOf leaf) :
    tree.Stores record := by
  obtain ⟨stored, kind⟩ := leafAt_eq_ok.mp taken
  have verified := (tree.stored_eq_ok.mp stored).2
  obtain ⟨index, inside, rfl⟩ := List.mem_iff_getElem.mp member
  exact ⟨number, leaf, index, stored, kind, length_recordsOf verified kind ▸ inside,
    leafRecord_of_verified verified kind index inside⟩

/-- So are the records of all leaves of a trail. -/
theorem Trail.stores {start behind : UInt32} {leaves : List Node}
    (trail : Trail tree.leafAt start leaves behind) :
    ∀ record ∈ tree.recordsIn leaves, tree.Stores record := by
  intro record member
  obtain ⟨leaf, onTrail, inside⟩ := List.mem_flatMap.mp member
  obtain ⟨number, taken⟩ := trail.taken leaf onTrail
  exact stores_of_leafAt taken inside

/-- A tree that does not call itself empty is iterated from the node that it says is the first
leaf. -/
theorem drainFirst_direct (occupied : tree.isEmpty = false)
    (started : tree.header.firstLeafNode ≠ 0) :
    ((tree.direct (m := Id)).drainFirst).run =
      (tree.stored tree.header.firstLeafNode).bind fun node => .ok ((tree.direct (m := Id)).drain
        ⟨some node, 0, 0⟩).run := by
  have first : (tree.direct (m := Id)).firstPosition = some ⟨tree.header.firstLeafNode, 0⟩ := by
    rw [Access.firstPosition, show (tree.direct (m := Id)).tree = tree from rfl, occupied]
    simp [started]
  change ((tree.direct (m := Id)).drainFrom (tree.direct (m := Id)).firstPosition).run = _
  rw [first, drainFrom_some]

/-- Otherwise there is nothing to iterate. -/
theorem drainFirst_nothing (none_ : tree.isEmpty = true ∨ tree.header.firstLeafNode = 0) :
    ((tree.direct (m := Id)).drainFirst).run = .ok [] := by
  have first : (tree.direct (m := Id)).firstPosition = none := by
    rw [Access.firstPosition, show (tree.direct (m := Id)).tree = tree from rfl]
    rcases none_ with empty | zero
    · simp [empty]
    · simp [zero]
  change ((tree.direct (m := Id)).drainFrom (tree.direct (m := Id)).firstPosition).run = _
  rw [first, drainFrom_none]

/-- Whatever the node is that is said to be the first leaf, an iteration starts with what its
records look like as those of a leaf. -/
theorem drainFirst_starts (occupied : tree.isEmpty = false)
    (started : tree.header.firstLeafNode ≠ 0) {node : Node}
    (stored : tree.stored tree.header.firstLeafNode = .ok node) :
    ∃ behind, ((tree.direct (m := Id)).drainFirst).run = .ok (tree.readings node ++ behind) := by
  obtain ⟨leaves, _, last, _, _, _, _, drained⟩ := drain_shape stored 0
  refine ⟨(tree.recordsIn leaves).map .ok ++ last, ?_⟩
  rw [drainFirst_direct occupied started, stored]
  exact congrArg Except.ok drained

/-- If it is a leaf, all records that an iteration yields are stored. -/
theorem stores_of_drainFirst
    (leafFirst : ∀ node, tree.stored tree.header.firstLeafNode = .ok node → node.kind = .leaf)
    {items : List (Except Error (Key × Value))}
    (drained : ((tree.direct (m := Id)).drainFirst).run = .ok items) :
    ∀ record, .ok record ∈ items → tree.Stores record := by
  intro record member
  by_cases none_ : tree.isEmpty = true ∨ tree.header.firstLeafNode = 0
  · rw [drainFirst_nothing none_] at drained
    obtain ⟨⟩ := drained
    cases member
  obtain ⟨occupied, started⟩ := not_or.mp none_
  rw [drainFirst_direct (Bool.not_eq_true _ ▸ occupied) started] at drained
  obtain ⟨node, stored, ⟨⟩⟩ := bind_eq_ok.mp drained
  have taken := leafAt_eq_ok.mpr ⟨stored, leafFirst node stored⟩
  obtain ⟨leaves, behind, last, trail, _, _, errors, shape⟩ := drain_shape stored 0
  rw [shape, List.drop_zero, readings_of_leafAt taken] at member
  rcases List.mem_append.mp member with read | behindIt
  · obtain ⟨_, own, ⟨⟩⟩ := List.mem_map.mp read
    exact stores_of_leafAt taken own
  rcases List.mem_append.mp behindIt with read | atEnd
  · obtain ⟨_, later, ⟨⟩⟩ := List.mem_map.mp read
    exact trail.stores _ later
  · exact absurd atEnd (errors record)

/-- What spells a node of another kind is not got as a leaf. -/
theorem leafAt_refused {number : UInt32} {node : Node} (parsed : tree.parsed number = .ok node)
    (other : node.kind ≠ .leaf) : ∃ cause, tree.leafAt number = .error cause := by
  cases taken : tree.leafAt number with
  | error cause => exact ⟨cause, rfl⟩
  | ok leaf =>
    obtain ⟨stored, kind⟩ := leafAt_eq_ok.mp taken
    obtain ⟨⟩ := parsed.symm.trans (tree.stored_eq_ok.mp stored).1
    exact absurd kind other

/-- At the first node behind some leaves that is none, an iteration stops with an error. -/
theorem drainFirst_stops (occupied : tree.isEmpty = false) {leaves : List Node} {behind : UInt32}
    {cause : Error} (trail : Trail tree.leafAt tree.header.firstLeafNode leaves behind)
    (some_ : leaves ≠ []) (more : behind ≠ 0) (refused : tree.leafAt behind = .error cause) :
    ((tree.direct (m := Id)).drainFirst).run =
      .ok ((tree.recordsIn leaves).map .ok ++ [.error cause]) := by
  cases trail with
  | here => exact absurd rfl some_
  | @step _ leaf leaves _ started taken rest =>
    have stored := (leafAt_eq_ok.mp taken).1
    rw [drainFirst_direct occupied started, stored]
    refine congrArg Except.ok ?_
    rw [drain_ends stored (.refused rest more refused), List.drop_zero, readings_of_leafAt taken,
      recordsIn_cons, List.map_append, List.append_assoc]
    rfl

/-- **Iterations that start in a leaf yield leaf records only.** Where the node that a tree says is
its first leaf is one if it can be read at all, whatever the links behind it are and whatever was
asked of the tree before: each record that an iteration yields is the one at some place of a
verified leaf; and where the links come to a node of another kind behind some leaves, an iteration
yields the records of these leaves, an error in place of any record of that node, and nothing more.
The error says that the node is no leaf, unless it does not even pass for what it is. -/
theorem iteration_yields_leaf_records
    (leafFirst : ∀ node, tree.stored tree.header.firstLeafNode = .ok node → node.kind = .leaf)
    (capacity : Nat) (requests : List (Request Key)) :
    let access := tree.cached (m := Id)
    let history := ((access.replies [] requests).run (.empty capacity)).2
    let drained := (access.drainFirst.run.run history).1
    (∀ items, drained = .ok items → ∀ record, .ok record ∈ items → tree.Stores record) ∧
    ∀ leaves behind node, tree.isEmpty = false →
      Trail tree.leafAt tree.header.firstLeafNode leaves behind → leaves ≠ [] → behind ≠ 0 →
      tree.parsed behind = .ok node → node.kind ≠ .leaf → ∃ cause,
        drained = .ok ((tree.recordsIn leaves).map .ok ++ [.error cause]) ∧
        (tree.stored behind = .ok node →
          cause = .corruptNode tree.schema.name behind (.notLeaf node.kind)) := by
  intro access history drained
  have kept : tree.Keeps history := ((tree.keeps_empty capacity).replies tree [] requests).2
  have same : drained = ((tree.direct (m := Id)).drainFirst).run :=
    ((Agreement.ofInvariant tree.Keeps).holds_run tree.cached_direct.drainFirst history kept).1
  rw [same]
  constructor
  · exact fun items handed record member => stores_of_drainFirst leafFirst handed record member
  · intro leaves behind node occupied trail some_ more parsed other
    obtain ⟨cause, refused⟩ := leafAt_refused parsed other
    refine ⟨cause, drainFirst_stops occupied trail some_ more refused, fun stored => ?_⟩
    rw [leafAt_of_other stored other] at refused
    obtain ⟨⟩ := refused
    rfl

/-- If the second leaf of the sample links to the root, an iteration stops there. -/
theorem iteration_yields_leaf_records_relinked :
    let access := (relinked 1).cached (m := Id)
    (access.drainFirst.run.run (.empty 1)).1 =
      .ok [.ok (10, [7, 7]), .ok (15, [6, 6]), .ok (20, [8, 8]), .ok (30, [9, 9]),
        .error (.corruptNode "sample" 1 (.notLeaf .index))] ∧
    (relinked 1).Stores (30, [9, 9]) := by
  intro access
  obtain ⟨kind, leftKind, onward, rightKind, back⟩ : ((relinked 1).nodeAt 1).kind = .index ∧
      ((relinked 1).nodeAt 2).kind = .leaf ∧ ((relinked 1).nodeAt 2).forwardLink = 3 ∧
      ((relinked 1).nodeAt 3).kind = .leaf ∧ ((relinked 1).nodeAt 3).forwardLink = 1 := by
    decide +kernel
  have left : (relinked 1).leafAt 2 = .ok ((relinked 1).nodeAt 2) :=
    leafAt_eq_ok.mpr ⟨stored_nodeAt (by rw [leftKind]; decide), leftKind⟩
  have right : (relinked 1).leafAt 3 = .ok ((relinked 1).nodeAt 3) :=
    leafAt_eq_ok.mpr ⟨stored_nodeAt (by rw [rightKind]; decide), rightKind⟩
  have root : (relinked 1).stored 1 = .ok ((relinked 1).nodeAt 1) :=
    stored_nodeAt (by rw [kind]; decide)
  have trail : Trail (relinked 1).leafAt 2 [(relinked 1).nodeAt 2, (relinked 1).nodeAt 3] 1 := by
    refine .step (by decide) left ?_
    rw [onward]
    exact .step (by decide) right (back ▸ .here)
  have leafFirst : ∀ node, (relinked 1).stored (relinked 1).header.firstLeafNode = .ok node →
      node.kind = .leaf := by
    intro node stored
    obtain ⟨⟩ := stored.symm.trans (leafAt_eq_ok.mp left).1
    exact leftKind
  obtain ⟨leafRecords, stops⟩ := iteration_yields_leaf_records leafFirst 1 []
  obtain ⟨cause, drained, reason⟩ := stops _ 1 _ (by decide) trail (by simp) (by decide)
    ((relinked 1).stored_eq_ok.mp root).1 (by rw [kind]; decide)
  have records : (relinked 1).recordsIn [(relinked 1).nodeAt 2, (relinked 1).nodeAt 3] =
      [(10, [7, 7]), (15, [6, 6]), (20, [8, 8]), (30, [9, 9])] := by decide +kernel
  rw [reason root, records, kind] at drained
  exact ⟨drained, leafRecords _ drained _ (by simp)⟩

section Sample

/-! A tree of hot files that says of its root that it is the first leaf. -/

/-- Its description. -/
def astrayHeader : TreeHeader :=
  { Stored.zero TreeHeader with
    treeDepth := 2, rootNode := 1, leafRecords := 1, firstLeafNode := 1, lastLeafNode := 2
    nodeSize := 512, maxKeyLength := 12, totalNodes := 3, attributes := 6 }

/-- The only key in it. -/
def astrayKey : HotFileKey := ⟨.data, 5, 20⟩

/-- A record under this key. -/
def astrayRecord (value : UInt32) : Bytes :=
  Word.bytes (UInt16.ofNat HotFileKey.length) ++ astrayKey.encode ++ Word.bytes value

/-- Its description, the root, and the leaf under it. -/
def astrayImage : Bytes :=
  nodeBytes 512 0 1 0 [Stored.encode astrayHeader] ++ nodeBytes 512 0 0 2 [astrayRecord 2] ++
    nodeBytes 512 0 255 1 [astrayRecord 1]

/-- Where it is stored. -/
def astrayStream : ForkStream where
  window := ⟨some 1536, fun offset wanted => .ok ((astrayImage.drop offset).take wanted)⟩
  fork := ⟨18, .data, 1536, 1, 1536, [⟨0, 0, 1⟩], 0⟩

/-- The tree. -/
def astray : Tree HotFileKey HotFileRecord :=
  match (ofStream hotFileSchema.name (fun _ => pure hotFileSchema) astrayStream 18 :
    ExceptT Error Id _).run with
  | .ok tree => tree
  | .error _ => ⟨hotFileSchema, astrayStream, 0, Stored.zero TreeHeader, []⟩

/-- **An iteration reads the entries of an index node as records** if this is the node that is said
to be the first leaf. The tree opens, and what is handed out first is its key with the number of the
child, although no leaf has this record: only the last of the three nodes is a leaf, and its one
record has another value. -/
theorem iteration_reads_index_entries :
    (ofStream hotFileSchema.name (fun _ => pure hotFileSchema) astrayStream 18 :
      ExceptT Error Id _).run = .ok astray ∧
    ∃ node items, astray.stored astray.header.firstLeafNode = .ok node ∧ node.kind = .index ∧
      ((astray.cached (m := Id)).drainFirst.run.run (.empty 16)).1 =
        .ok (.ok (astrayKey, .tag 2) :: items) ∧
      ¬ astray.Stores (astrayKey, .tag 2) := by
  have header : astray.header = astrayHeader := by decide +kernel
  have opened : (ofStream hotFileSchema.name (fun _ => pure hotFileSchema) astrayStream 18 :
      ExceptT Error Id _).run = .ok astray := by
    have found : astray.id = 18 := by decide +kernel
    unfold astray at found ⊢
    split at found
    next opened => rw [opened]
    next => cases found
  have root : astray.stored astray.header.firstLeafNode = .ok (astray.nodeAt 1) := by
    rw [header]
    exact stored_nodeAt (by decide +kernel)
  have same := ((Agreement.ofInvariant astray.Keeps).holds_run astray.cached_direct.drainFirst
    (.empty 16) (astray.keeps_empty 16)).1
  obtain ⟨items, drained⟩ := drainFirst_starts (by decide +kernel) (by rw [header]; decide) root
  have readings : astray.readings (astray.nodeAt 1) = [.ok (astrayKey, .tag 2)] := by decide +kernel
  rw [readings] at drained
  refine ⟨opened, astray.nodeAt 1, items, root, by decide +kernel, same.trans drained, ?_⟩
  rintro ⟨number, leaf, index, stored, kind, inside, read⟩
  have below := UInt32.lt_iff_toNat_lt.mp (inside_of_stored stored)
  have known {other : UInt32} (same : number.toNat = other.toNat) : leaf = astray.nodeAt other := by
    rw [UInt32.toNat_inj.mp same] at stored
    unfold nodeAt
    rw [stored]
  rw [header] at below
  change number.toNat < 3 at below
  obtain zero | one | two : number.toNat = 0 ∨ number.toNat = 1 ∨ number.toNat = 2 := by omega
  · rw [known (show number.toNat = (0 : UInt32).toNat from zero)] at kind
    exact absurd kind (by decide +kernel)
  · rw [known (show number.toNat = (1 : UInt32).toNat from one)] at kind
    exact absurd kind (by decide +kernel)
  · obtain rfl := known (show number.toNat = (2 : UInt32).toNat from two)
    have count : (astray.nodeAt 2).count = 1 := by decide +kernel
    obtain rfl : index = 0 := by omega
    have theirs : astray.leafRecord (astray.nodeAt 2) 0 = .ok (astrayKey, .tag 1) := by
      decide +kernel
    rw [theirs] at read
    exact absurd read (by decide)

end Sample

end Tree

end HfsPlus
