import HfsPlus.Proofs.Tree.Cursor
import HfsPlus.Proofs.Tree.Session

/-!
# Looking up records of well-formed trees

In a well-formed tree a search finds a key exactly if a record has it, and otherwise the
place where it would have to be. A cursor at that place hands out the records from there
on. All this is about the records of the leaves as one ascending list, and the leaf that
a search ends in is forgotten.
-/

namespace HfsPlus

open Std (OrientedCmp TransCmp)

namespace Tree

variable {Key Value : Type} {tree : Tree Key Value} {leaves : List Node}

/-- A tree with a leaf and a root is not empty. -/
theorem WellFormed.not_empty (wellFormed : tree.WellFormed leaves) : tree.isEmpty = false := by
  unfold Tree.isEmpty
  simp [wellFormed.rooted, wellFormed.occupied]

/-- What lies under a node is at least one leaf. -/
theorem Spans.nonempty {levels : Nat} {number : UInt32} (spans : tree.Spans levels number leaves) :
    leaves ≠ [] := by
  induction spans with
  | leaf => exact List.cons_ne_nil _ _
  | @index levels number node parts stored kind occupied ascending lengths below separates
      inductionHypothesis =>
    have some_ : 0 < (tree.entriesOf node).length := List.length_pos_iff.mpr occupied
    have first := inductionHypothesis 0 _ _ (List.getElem?_eq_getElem some_)
      (List.getElem?_eq_getElem (lengths ▸ some_))
    intro none_
    exact first (List.flatten_eq_nil_iff.mp none_ _ (List.getElem_mem _))

/-- A place in one leaf cuts the records of all leaves in two. -/
theorem recordsIn_cut (before : List Node) (leaf : Node) (behind : List Node) (index : Nat) :
    tree.recordsIn (before ++ leaf :: behind) =
      (tree.recordsIn before ++ (tree.recordsOf leaf).take index) ++
        ((tree.recordsOf leaf).drop index ++ tree.recordsIn behind) := by
  rw [recordsIn_append, recordsIn_cons, List.append_assoc, ← List.append_assoc (List.take _ _),
    List.take_append_drop]

/-- A key cuts records in two: all in front are smaller. Behind the cut all are greater,
except the first if it was found, which is equal. -/
structure Halves (tree : Tree Key Value) (key : Key) (front rest : List (Key × Value))
    (found : Bool) : Prop where
  smaller : ∀ record ∈ front, tree.Before record.1 key
  missing : found = false → ∀ record ∈ rest, tree.Before key record.1
  hit : found = true → ∃ record behind, rest = record :: behind ∧
    tree.schema.compare record.1 key = .eq ∧ ∀ other ∈ behind, tree.Before key other.1

section Halves

variable [OrientedCmp tree.schema.compare] {key : Key} {front rest : List (Key × Value)}
variable {found : Bool} (halves : tree.Halves key front rest found)
include halves

/-- The records that are not smaller are those behind the cut. -/
theorem Halves.filter_eq :
    (front ++ rest).filter (fun record => (tree.schema.compare record.1 key).isGE) = rest := by
  have noneInFront : front.filter (fun record => (tree.schema.compare record.1 key).isGE) = [] := by
    refine List.filter_eq_nil_iff.mpr fun record member => ?_
    rw [halves.smaller record member]
    exact Bool.false_ne_true
  have allBehind : rest.filter (fun record => (tree.schema.compare record.1 key).isGE) = rest := by
    refine List.filter_eq_self.mpr fun record member => ?_
    cases found with
    | false => rw [OrientedCmp.gt_of_lt (halves.missing rfl record member)]; rfl
    | true =>
      obtain ⟨first, behind, rfl, equal, greater⟩ := halves.hit rfl
      rcases List.mem_cons.mp member with rfl | later
      · rw [equal]; rfl
      · rw [OrientedCmp.gt_of_lt (greater record later)]; rfl
  rw [List.filter_append, noneInFront, allBehind, List.nil_append]

/-- The record with an equal key is the first behind the cut, if it was found. -/
theorem Halves.find?_eq :
    (front ++ rest).find? (fun record => (tree.schema.compare record.1 key).isEq) =
      if found then rest.head? else none := by
  have noneInFront :
      front.find? (fun record => (tree.schema.compare record.1 key).isEq) = none := by
    refine List.find?_eq_none.mpr fun record member => ?_
    rw [halves.smaller record member]
    exact Bool.false_ne_true
  rw [List.find?_append, noneInFront, Option.none_or]
  cases found with
  | false =>
    refine List.find?_eq_none.mpr fun record member => ?_
    rw [OrientedCmp.gt_of_lt (halves.missing rfl record member)]
    exact Bool.false_ne_true
  | true =>
    obtain ⟨first, behind, rfl, equal, _⟩ := halves.hit rfl
    exact List.find?_cons_of_pos (by rw [equal]; rfl)

/-- A key was found if some record has an equal one. -/
theorem Halves.found_iff :
    found = true ↔ ∃ record ∈ front ++ rest, tree.schema.compare record.1 key = .eq := by
  constructor
  · intro hit
    obtain ⟨record, behind, rfl, equal, _⟩ := halves.hit hit
    exact ⟨record, List.mem_append_right _ List.mem_cons_self, equal⟩
  · rintro ⟨record, member, equal⟩
    by_contra absent
    rcases List.mem_append.mp member with inFront | behind
    · have smaller := halves.smaller record inFront
      rw [Before, equal] at smaller
      contradiction
    · have greater := OrientedCmp.gt_of_lt (halves.missing (Bool.not_eq_true _ ▸ absent) record behind)
      rw [equal] at greater
      contradiction

end Halves

/-- Where a key cuts the leaves of a tree, it cuts their records. -/
theorem Cut.halves {key : Key} {before behind : List Node} {leaf : Node} {index : Nat}
    {found : Bool} (cut : tree.Cut key before leaf behind index found) :
    tree.Halves key (tree.recordsIn before ++ (tree.recordsOf leaf).take index)
      ((tree.recordsOf leaf).drop index ++ tree.recordsIn behind) found := by
  have greaterFrom : ∀ start, index ≤ start → ¬ (found = true ∧ start = index) →
      ∀ record ∈ (tree.recordsOf leaf).drop start, tree.Before key record.1 := by
    intro start notBefore notFound record member
    obtain ⟨place, inside, rfl⟩ := List.mem_iff_getElem.mp member
    rw [List.length_drop] at inside
    have greater := cut.place.behind (start + place) (by rw [List.length_map]; omega) (by omega)
      (fun ⟨hit, same⟩ => notFound ⟨hit, by omega⟩)
    rw [List.getElem_drop]
    rwa [List.getElem_map] at greater
  refine ⟨?_, ?_, ?_⟩
  · intro record member
    rcases List.mem_append.mp member with left | inLeaf
    · exact cut.smaller record left
    · obtain ⟨place, inside, rfl⟩ := List.mem_iff_getElem.mp inLeaf
      rw [List.length_take] at inside
      have smaller := cut.place.before place (by rw [List.length_map]; omega) (by omega)
      rw [List.getElem_take]
      rwa [List.getElem_map] at smaller
  · intro missing record member
    rcases List.mem_append.mp member with inLeaf | right
    · exact greaterFrom index (Nat.le_refl _) (by simp [missing]) record inLeaf
    · exact cut.greater record right
  · intro hit
    obtain ⟨inside, equal⟩ := cut.place.equal hit
    rw [List.length_map] at inside
    rw [List.getElem_map] at equal
    refine ⟨_, _, by rw [List.drop_eq_getElem_cons inside, List.cons_append], equal, ?_⟩
    intro other member
    rcases List.mem_append.mp member with inLeaf | right
    · exact greaterFrom (index + 1) (Nat.le_succ _) (by omega) other inLeaf
    · exact cut.greater other right

/-- All leaves of a well-formed tree are stored. -/
theorem WellFormed.sound (wellFormed : tree.WellFormed leaves) : tree.Leaves leaves :=
  wellFormed.spans.leaves

/-- A cursor at the first record hands out all records. -/
theorem WellFormed.drainFirst_direct (wellFormed : tree.WellFormed leaves) :
    ((tree.direct (m := Id)).drainFirst).run = .ok ((tree.recordsIn leaves).map .ok) := by
  cases leaves with
  | nil => exact absurd rfl wellFormed.spans.nonempty
  | cons leaf behind =>
    obtain ⟨_, number, linked⟩ := wellFormed.linked
    have first : (tree.direct (m := Id)).firstPosition = some ⟨leaf.number, 0⟩ := by
      rw [← number, Access.firstPosition,
        direct_tree, wellFormed.not_empty]
      simp [wellFormed.started]
    have drained : ((tree.direct (m := Id)).drainFrom (some ⟨leaf.number, 0⟩)).run = _ :=
      drainFrom_chain wellFormed.sound linked
    rw [← first] at drained
    exact drained

/-- Of ascending records no two have equal keys. -/
theorem eq_of_compare_eq [OrientedCmp tree.schema.compare] {records : List (Key × Value)}
    {left right : Key × Value}
    (ascending : records.Pairwise fun left right => tree.Before left.1 right.1)
    (leftMember : left ∈ records) (rightMember : right ∈ records)
    (equal : tree.schema.compare left.1 right.1 = .eq) : left = right := by
  have sorted := List.pairwise_iff_getElem.mp ascending
  obtain ⟨leftPlace, leftInside, rfl⟩ := List.mem_iff_getElem.mp leftMember
  obtain ⟨rightPlace, rightInside, rfl⟩ := List.mem_iff_getElem.mp rightMember
  rcases Nat.lt_trichotomy leftPlace rightPlace with less | rfl | greater
  · have smaller := sorted _ _ leftInside rightInside less
    rw [Before, equal] at smaller
    contradiction
  · rfl
  · have smaller := sorted _ _ rightInside leftInside greater
    rw [Before, OrientedCmp.eq_symm equal] at smaller
    contradiction

section Direct

variable [TransCmp tree.schema.compare] (wellFormed : tree.WellFormed leaves)
include wellFormed

/-- A search ends where its key cuts the leaves of the tree. -/
theorem WellFormed.search_cut (key : Key) :
    ∃ before leaf behind index found, leaves = before ++ leaf :: behind ∧
      ((tree.direct (m := Id)).search key).run = .ok ⟨some ⟨leaf.number, index⟩, found⟩ ∧
      tree.Cut key before leaf behind index found := by
  rw [Access.search, show (tree.direct (m := Id)).tree.isEmpty = false from wellFormed.not_empty]
  exact descend_cut key wellFormed.spans wellFormed.ascending

/-- A search tells whether a record has the key. From the place that it gives, a cursor
hands out the records that are not smaller. -/
theorem WellFormed.search_direct (key : Key) :
    ∃ result, ((tree.direct (m := Id)).search key).run = .ok result ∧
      (result.found = true ↔
        ∃ record ∈ tree.recordsIn leaves, tree.schema.compare record.1 key = .eq) ∧
      ((tree.direct (m := Id)).drainFrom result.position).run =
        .ok (((tree.recordsIn leaves).filter fun record =>
          (tree.schema.compare record.1 key).isGE).map .ok) := by
  obtain ⟨before, leaf, behind, index, found, rfl, searched, cut⟩ := wellFormed.search_cut key
  have linked := Linked.of_append wellFormed.linked
  have sound : tree.Leaves (leaf :: behind) := fun node member =>
    wellFormed.sound node (List.mem_append_right _ member)
  refine ⟨_, searched, ?_, ?_⟩
  · rw [recordsIn_cut before leaf behind index]
    exact cut.halves.found_iff
  · rw [drainFrom_chain sound linked.2.2,
      recordsIn_cut before leaf behind index, cut.halves.filter_eq]

/-- A look-up finds the record with an equal key. -/
theorem WellFormed.find_direct (key : Key) :
    ((tree.direct (m := Id)).find key).run =
      .ok ((tree.recordsIn leaves).find? fun record =>
        (tree.schema.compare record.1 key).isEq) := by
  obtain ⟨before, leaf, behind, index, found, rfl, searched, cut⟩ := wellFormed.search_cut key
  obtain ⟨stored, kind⟩ := wellFormed.sound leaf (by simp)
  rw [Access.find, run_bind_direct, searched, recordsIn_cut before leaf behind index,
    cut.halves.find?_eq]
  dsimp only [Except.bind]
  cases found with
  | false => rfl
  | true =>
    obtain ⟨inside, _⟩ := cut.place.equal rfl
    rw [List.length_map] at inside
    rw [if_pos rfl, if_pos rfl, run_bind_direct, direct_node, if_pos rfl, stored,
      List.drop_eq_getElem_cons inside]
    dsimp only [Except.bind]
    rw [show (tree.direct (m := Id)).tree = tree from rfl,
      leafRecord_of_verified (tree.stored_eq_ok.mp stored).2 kind index inside]
    rfl

/-- The record with an equal key is the only one. -/
theorem WellFormed.find?_unique {record : Key × Value} {key : Key}
    (member : record ∈ tree.recordsIn leaves) (equal : tree.schema.compare record.1 key = .eq) :
    (tree.recordsIn leaves).find? (fun record => (tree.schema.compare record.1 key).isEq) =
      some record := by
  cases first : (tree.recordsIn leaves).find? fun record =>
      (tree.schema.compare record.1 key).isEq with
  | none =>
    have differs := List.find?_eq_none.mp first record member
    simp [equal] at differs
  | some other =>
    have otherEqual : tree.schema.compare other.1 key = .eq := by
      simpa using List.find?_some first
    rw [eq_of_compare_eq wellFormed.ascending (List.mem_of_find?_eq_some first) member
      (TransCmp.eq_trans otherEqual (OrientedCmp.eq_symm equal))]

end Direct

/-- A value is kept under a key, or under one that counts as equal. -/
def Kept (tree : Tree Key Value) (leaves : List Node) (key : Key) (value : Value) : Prop :=
  ∃ stored, (stored, value) ∈ tree.recordsIn leaves ∧ tree.schema.compare stored key = .eq

section Kept

variable [TransCmp tree.schema.compare] (wellFormed : tree.WellFormed leaves) {key : Key}
include wellFormed

/-- A look-up finds what is kept under a key. -/
theorem WellFormed.find_kept {value : Value} (kept : tree.Kept leaves key value) :
    ∃ stored, ((tree.direct (m := Id)).find key).run = .ok (some (stored, value)) := by
  obtain ⟨stored, member, equal⟩ := kept
  refine ⟨stored, ?_⟩
  rw [wellFormed.find_direct, wellFormed.find?_unique member equal]

/-- Only one value is kept under a key. -/
theorem WellFormed.kept_unique {left right : Value} (leftKept : tree.Kept leaves key left)
    (rightKept : tree.Kept leaves key right) : left = right := by
  obtain ⟨_, leftFound⟩ := wellFormed.find_kept leftKept
  obtain ⟨_, rightFound⟩ := wellFormed.find_kept rightKept
  rw [leftFound] at rightFound
  obtain ⟨⟩ := rightFound
  rfl

end Kept

/-- **Look-ups are exact.** In a well-formed tree, whatever the order of its keys is, a
search finds a key exactly if some record has an equal one; a look-up then returns this
record, and nothing otherwise; and a cursor at the place of the search hands out the
records that are not smaller than the key, in the order of the leaves. A cursor at the
first record hands out all records, and these ascend. None of this depends on the
cache, or on what was asked of the tree before. -/
theorem lookup_exact [TransCmp tree.schema.compare] (wellFormed : tree.WellFormed leaves)
    (key : Key) :
    let access := tree.cached (m := Id)
    let records := tree.recordsIn leaves
    records.Pairwise (fun left right => tree.schema.compare left.1 right.1 = .lt) ∧
      ∃ result : SearchResult,
        (result.found = true ↔ ∃ record ∈ records, tree.schema.compare record.1 key = .eq) ∧
        ∀ (capacity : Nat) (requests : List (Request Key)),
          let history := ((access.replies [] requests).run (.empty capacity)).2
          ((access.search key).run.run history).1 = .ok result ∧
          ((access.drainFrom result.position).run.run history).1 =
            .ok ((records.filter fun record =>
              (tree.schema.compare record.1 key).isGE).map .ok) ∧
          ((access.find key).run.run history).1 =
            .ok (records.find? fun record => (tree.schema.compare record.1 key).isEq) ∧
          (∀ record ∈ records, tree.schema.compare record.1 key = .eq →
            ((access.find key).run.run history).1 = .ok (some record)) ∧
          (access.drainFirst.run.run history).1 = .ok (records.map .ok) := by
  intro access records
  obtain ⟨result, searched, found, drained⟩ := wellFormed.search_direct key
  refine ⟨wellFormed.ascending, result, found, fun capacity requests => ?_⟩
  intro history
  have kept : tree.Keeps history := ((tree.keeps_empty capacity).replies tree [] requests).2
  let agreement := Agreement.ofInvariant tree.Keeps
  have same := tree.cached_direct
  have looked : ((access.find key).run.run history).1 = _ :=
    (agreement.holds_run (same.find key) history kept).1.trans (wellFormed.find_direct key)
  refine ⟨?_, ?_, looked, ?_, ?_⟩
  · exact (agreement.holds_run (same.search key) history kept).1.trans searched
  · exact (agreement.holds_run (same.drainFrom result.position) history kept).1.trans drained
  · intro record member equal
    rw [looked, wellFormed.find?_unique member equal]
  · exact (agreement.holds_run same.drainFirst history kept).1.trans wellFormed.drainFirst_direct

/-- The node that is stored under a number, for a tree that is known to store one. -/
def nodeAt (tree : Tree Key Value) (number : UInt32) : Node :=
  match tree.stored number with
  | .ok node => node
  | .error _ => ⟨"", 0, ⟨0, 0, 0, 0, 0, 0⟩, .map, [], #[], 0⟩

/-- A node that holds records is a stored one. -/
theorem stored_nodeAt {number : UInt32} (kind : (tree.nodeAt number).kind ≠ .map) :
    tree.stored number = .ok (tree.nodeAt number) := by
  unfold nodeAt at kind ⊢
  cases read : tree.stored number with
  | ok node => rfl
  | error cause => simp [read] at kind

section Sample

/-! A tree of one root and two leaves, in which a search has to choose a subtree. -/

/-- The bytes of a node with some records. -/
def nodeBytes (size : Nat) (forward kind height : UInt8) (records : List Bytes) : Bytes :=
  let front := [0, 0, 0, forward, 0, 0, 0, 0, kind, height, 0, UInt8.ofNat records.length, 0, 0] ++
    records.flatten
  let places := records.foldl (fun places record => places ++ [places.getLastD 0 + record.length])
    [nodeDescriptorSize]
  let table := places.reverse.flatMap fun place => Word.bytes (UInt16.ofNat place)
  front ++ List.replicate (size - front.length - table.length) 0 ++ table

/-- An unused node, a root, and the two leaves under it. -/
def sampleImage : Bytes :=
  List.replicate 512 0 ++
    nodeBytes 512 0 0 2 [[1, 10, 0, 0, 0, 2], [1, 20, 0, 0, 0, 3]] ++
    nodeBytes 512 3 255 1 [[1, 10, 7, 7], [1, 15, 6, 6]] ++
    nodeBytes 512 0 255 1 [[1, 20, 8, 8], [1, 30, 9, 9]]

/-- A tree of two levels whose keys are single bytes. -/
def sample : Tree UInt8 Bytes where
  schema :=
    { name := "sample"
      compare := compare
      decodeKey := fun bytes => .ok (bytes.headD 0)
      decodeValue := fun _ bytes => .ok bytes }
  stream :=
    { window := ⟨some 2048, fun offset wanted => .ok ((sampleImage.drop offset).take wanted)⟩
      fork := ⟨16, .data, 2048, 1, 2048, [⟨0, 0, 1⟩], 0⟩ }
  id := 16
  header :=
    { Stored.zero TreeHeader with
      treeDepth := 2, rootNode := 1, leafRecords := 4, firstLeafNode := 2, lastLeafNode := 3
      nodeSize := 512, maxKeyLength := 1, totalNodes := 4, attributes := 4 }
  userData := []

/-- The sample has a root with two leaves under it. -/
theorem sample_spans : sample.Spans 3 1 [sample.nodeAt 2, sample.nodeAt 3] := by
  have entries : sample.entriesOf (sample.nodeAt 1) = [(10, 2), (20, 3)] := by decide +kernel
  have left : sample.recordsIn [sample.nodeAt 2] = [(10, [7, 7]), (15, [6, 6])] := by decide +kernel
  have right : sample.recordsIn [sample.nodeAt 3] = [(20, [8, 8]), (30, [9, 9])] := by decide +kernel
  change sample.Spans 3 1 [[sample.nodeAt 2], [sample.nodeAt 3]].flatten
  refine .index (stored_nodeAt (by decide +kernel)) (by decide +kernel) ?_ ?_ ?_ ?_ ?_
  · simp [entries]
  · rw [entries]
    unfold Before
    decide
  · rw [entries]
    rfl
  · rw [entries]
    rintro (_ | _ | place) entry part ⟨⟩ ⟨⟩
    · exact .leaf (stored_nodeAt (by decide +kernel)) (by decide +kernel)
    · exact .leaf (stored_nodeAt (by decide +kernel)) (by decide +kernel)
  · rw [entries]
    constructor
    · rintro (_ | _ | place) part next ⟨⟩ ⟨⟩
      rw [left]
      unfold Before
      decide
    · rintro (_ | _ | place) part entry positive ⟨⟩ ⟨⟩
      · contradiction
      · rw [right]
        unfold Before
        decide

/-- The records of the sample. -/
theorem sample_records : sample.recordsIn [sample.nodeAt 2, sample.nodeAt 3] =
    [(10, [7, 7]), (15, [6, 6]), (20, [8, 8]), (30, [9, 9])] := by decide +kernel

/-- The sample is well-formed. -/
theorem sample_wellFormed : sample.WellFormed [sample.nodeAt 2, sample.nodeAt 3] where
  rooted := by decide
  occupied := by decide
  started := by decide
  spans := sample_spans
  linked := by
    refine ⟨by decide, by decide +kernel, by decide +kernel, by decide +kernel, ?_⟩
    change (sample.nodeAt 3).forwardLink = 0
    decide +kernel
  ascending := by
    rw [sample_records]
    unfold Before
    decide

instance : TransCmp sample.schema.compare :=
  inferInstanceAs (TransCmp (compare : UInt8 → UInt8 → Ordering))

/-- A key between both leaves has its place behind the last record of the left one, and
a cursor goes on from there in the right one. -/
theorem lookup_exact_sample :
    let access := sample.cached (m := Id)
    ∃ result : SearchResult, result.found = false ∧
      ((access.search 17).run.run (.empty 1)).1 = .ok result ∧
      ((access.drainFrom result.position).run.run (.empty 1)).1 =
        .ok [.ok (20, [8, 8]), .ok (30, [9, 9])] ∧
      ((access.find 15).run.run (.empty 1)).1 = .ok (some (15, [6, 6])) := by
  intro access
  obtain ⟨_, result, found, answers⟩ := lookup_exact sample_wellFormed 17
  obtain ⟨searched, drained, _⟩ := answers 1 []
  obtain ⟨_, _, _, answers⟩ := lookup_exact sample_wellFormed 15
  obtain ⟨_, _, looked, _⟩ := answers 1 []
  rw [sample_records] at found drained looked
  refine ⟨result, ?_, searched, drained, looked⟩
  have absent : ¬ ∃ record ∈ ([(10, [7, 7]), (15, [6, 6]), (20, [8, 8]), (30, [9, 9])] :
      List (UInt8 × Bytes)), sample.schema.compare record.1 17 = .eq := by decide
  exact Bool.eq_false_iff.mpr (absent ∘ found.mp)

end Sample

end Tree

end HfsPlus
