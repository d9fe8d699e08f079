import HfsPlus.Proofs.Tree.Answers
import HfsPlus.Proofs.Tree.WellFormed

/-!
# Searches go where a key belongs

Bisecting ascending keys ends at an equal key or, if there is none, at the gap where
the key belongs: everything on its left was found to be smaller, everything on its right
to be greater (`Tree.Place`). In an index node the entry to follow is then the last that
is not greater. What lies to its left is smaller than the key sought, what lies to its
right is greater, so the descent may forget about both; at the end it has cut the leaves
of the tree in two at the one leaf where the key belongs.
-/

namespace HfsPlus

open Std (OrientedCmp TransCmp)

namespace Tree

variable {Key Value : Type} {tree : Tree Key Value}

/-- Where a key belongs among ascending keys: at an equal one, or in the gap before a
key. -/
structure Place (tree : Tree Key Value) (keys : List Key) (key : Key) (index : Nat)
    (found : Bool) : Prop where
  before : ∀ place (inside : place < keys.length), place < index → tree.Before keys[place] key
  equal : found = true → ∃ inside : index < keys.length, tree.schema.compare keys[index] key = .eq
  behind : ∀ place (inside : place < keys.length), index ≤ place → ¬ (found ∧ place = index) →
    tree.Before key keys[place]
  within : index ≤ keys.length

section Order

variable [TransCmp tree.schema.compare] {left middle right : Key}

/-- A key before one that is before a third is before the third. -/
theorem Before.trans (first : tree.Before left middle) (second : tree.Before middle right) :
    tree.Before left right := TransCmp.lt_trans first second

/-- A key before another is before all that count as equal to that one. -/
theorem Before.of_eq (first : tree.Before left middle)
    (second : tree.schema.compare middle right = .eq) : tree.Before left right :=
  TransCmp.lt_of_lt_of_eq first second

/-- A key that is not before one that is behind a third is behind the third itself. -/
theorem Before.of_not (first : tree.Before left middle) (second : ¬ tree.Before right middle) :
    tree.Before left right := by
  have notGreater : (tree.schema.compare middle right).isLE := by
    rw [← OrientedCmp.isGE_iff_isLE]
    cases order : tree.schema.compare right middle with
    | lt => exact (second order).elim
    | eq => rfl
    | gt => rfl
  exact TransCmp.lt_of_lt_of_isLE first notGreater

end Order

/-- Among ascending keys, an equal one is the place of a key. -/
theorem Place.of_eq [TransCmp tree.schema.compare] {keys : List Key} {key : Key} {index : Nat}
    (ascending : keys.Pairwise tree.Before) (inside : index < keys.length)
    (equal : tree.schema.compare keys[index] key = .eq) : tree.Place keys key index true := by
  have sorted := List.pairwise_iff_getElem.mp ascending
  refine ⟨?_, fun _ => ⟨inside, equal⟩, ?_, Nat.le_of_lt inside⟩
  · intro place insidePlace left
    exact (sorted place index insidePlace inside left).of_eq equal
  · intro place insidePlace notBefore notFound
    have right : index < place := by
      rcases Nat.lt_or_eq_of_le notBefore with right | same
      · exact right
      · exact (notFound ⟨rfl, same.symm⟩).elim
    exact TransCmp.lt_of_eq_of_lt (OrientedCmp.eq_symm equal)
      (sorted index place inside insidePlace right)

/-- One step of a bisection compares the key in the middle. -/
theorem bisect_step {node : Node} {key middleKey : Key} {low high middle : Nat} (wide : low < high)
    (halved : middle = low + (high - low) / 2) (read : tree.keyAt node middle = .ok middleKey) :
    tree.bisect node key low high =
      match tree.schema.compare middleKey key with
      | .lt => tree.bisect node key (middle + 1) high
      | .eq => .ok (middle, true)
      | .gt => tree.bisect node key low middle := by
  rw [Tree.bisect, if_pos wide]
  dsimp only
  rw [← halved, read]
  rfl

section Bisection

variable [TransCmp tree.schema.compare] {node : Node} {keys : List Key}
variable (readable : ∀ index (inside : index < keys.length), tree.keyAt node index = .ok keys[index])
variable (ascending : keys.Pairwise tree.Before) (key : Key)
include readable ascending

/-- Bisecting any part of ascending keys finds the place of a key, if everything in
front of the part is smaller and everything behind it greater. The induction follows the
bisection, which keeps this of the part that is left. -/
theorem bisect_place (low high : Nat) (ordered : low ≤ high) (within : high ≤ keys.length)
    (before : ∀ place (inside : place < keys.length), place < low → tree.Before keys[place] key)
    (behind : ∀ place (inside : place < keys.length), high ≤ place → tree.Before key keys[place]) :
    ∃ index found, tree.bisect node key low high = .ok (index, found) ∧
      tree.Place keys key index found := by
  have sorted := List.pairwise_iff_getElem.mp ascending
  induction low, high using Tree.bisect.induct with
  | case1 low high wide middle smaller greater =>
    have inside : middle < keys.length := by omega
    rw [bisect_step wide rfl (readable middle inside)]
    cases order : tree.schema.compare keys[middle] key with
    | lt =>
      refine smaller (by omega) within ?_ behind
      intro place insidePlace notBehind
      rcases Nat.lt_or_eq_of_le (Nat.le_of_lt_succ notBehind) with left | rfl
      · exact (sorted place middle insidePlace inside left).trans order
      · exact order
    | eq => exact ⟨middle, true, rfl, .of_eq ascending inside order⟩
    | gt =>
      have smallerKey : tree.Before key keys[middle] := OrientedCmp.lt_of_gt order
      refine greater (by omega) (by omega) before ?_
      intro place insidePlace notBefore
      rcases Nat.lt_or_eq_of_le notBefore with right | rfl
      · exact smallerKey.trans (sorted middle place inside insidePlace right)
      · exact smallerKey
  | case2 low high closed =>
    rw [Tree.bisect, if_neg closed]
    have same : low = high := by omega
    subst same
    refine ⟨low, false, rfl, before, by simp, ?_, within⟩
    intro place inside notBefore _
    exact behind place inside notBefore

/-- Bisecting a whole node finds the place of a key in it. -/
theorem scan_place (complete : keys.length = node.count) :
    ∃ index found, tree.scan node key = .ok (index, found) ∧ tree.Place keys key index found := by
  unfold Tree.scan
  rw [← complete]
  refine bisect_place readable ascending key 0 keys.length (Nat.zero_le _) (Nat.le_refl _) ?_ ?_
  · intro place inside impossible
    omega
  · intro place inside impossible
    omega

end Bisection

section Descent

variable {number : UInt32} {node : Node} {key : Key} {index : Nat} {found : Bool}
variable (stored : tree.stored number = .ok node) (scanned : tree.scan node key = .ok (index, found))
include stored scanned

/-- In a leaf the descent ends. -/
theorem descend_leaf (kind : node.kind = .leaf) (levels : Nat) :
    ((tree.direct (m := Id)).descend key (levels + 1) number).run =
      .ok ⟨some ⟨number, index⟩, found⟩ := by
  rw [Access.descend, run_bind_direct, direct_node, if_pos rfl, stored]
  dsimp only [Except.bind]
  rw [kind]
  dsimp only
  rw [show (tree.direct (m := Id)).tree = tree from rfl, scanned]
  rfl

/-- In an index node the descent follows an equal key, or the last smaller one, or the
first if there is none. -/
theorem descend_index {entry : Key × UInt32} (kind : node.kind = .index) (occupied : node.count ≠ 0)
    (read : tree.indexRecord node (if found then index else index - 1) = .ok entry)
    (levels : Nat) :
    ((tree.direct (m := Id)).descend key (levels + 1) number).run =
      ((tree.direct (m := Id)).descend key levels entry.2).run := by
  rw [Access.descend, run_bind_direct, direct_node, if_pos rfl, stored]
  dsimp only [Except.bind]
  rw [kind]
  dsimp only
  rw [if_neg occupied, show (tree.direct (m := Id)).tree = tree from rfl, scanned]
  change (liftM (tree.indexRecord node (if found then index else index - 1)) >>= _ :
    ExceptT Error Id SearchResult).run = _
  rw [read]
  rfl

end Descent

/-- A key cuts the leaves of a tree at one of them: all keys to its left are smaller,
all keys to its right are greater, and within it the place of the key is known. -/
structure Cut (tree : Tree Key Value) (key : Key) (before : List Node) (leaf : Node)
    (behind : List Node) (index : Nat) (found : Bool) : Prop where
  smaller : ∀ record ∈ tree.recordsIn before, tree.Before record.1 key
  greater : ∀ record ∈ tree.recordsIn behind, tree.Before key record.1
  place : tree.Place ((tree.recordsOf leaf).map Prod.fst) key index found

/-- A cut stays one among more leaves, if they are on their side of the key. -/
theorem Cut.widen {key : Key} {before behind left right : List Node} {leaf : Node} {index : Nat}
    {found : Bool} (cut : tree.Cut key before leaf behind index found)
    (smaller : ∀ record ∈ tree.recordsIn left, tree.Before record.1 key)
    (greater : ∀ record ∈ tree.recordsIn right, tree.Before key record.1) :
    tree.Cut key (left ++ before) leaf (behind ++ right) index found := by
  refine ⟨?_, ?_, cut.place⟩
  · intro record member
    rcases List.mem_append.mp (recordsIn_append _ _ ▸ member) with inLeft | here
    · exact smaller record inLeft
    · exact cut.smaller record here
  · intro record member
    rcases List.mem_append.mp (recordsIn_append _ _ ▸ member) with here | inRight
    · exact cut.greater record here
    · exact greater record inRight

/-- The records of some parts are those of each of them. -/
theorem mem_recordsIn_flatten {parts : List (List Node)} {record : Key × Value} :
    record ∈ tree.recordsIn parts.flatten ↔ ∃ part ∈ parts, record ∈ tree.recordsIn part := by
  simp only [recordsIn, List.mem_flatMap, List.mem_flatten]
  constructor
  · rintro ⟨node, ⟨part, chosen, inPart⟩, inNode⟩
    exact ⟨part, chosen, node, inPart, inNode⟩
  · rintro ⟨part, chosen, node, inPart, inNode⟩
    exact ⟨node, ⟨part, chosen, inPart⟩, inNode⟩

/-- A list falls into what is in front of a place, what is there, and what is behind. -/
theorem flatten_at {α : Type} {parts : List (List α)} {place : Nat} (inside : place < parts.length) :
    parts.flatten =
      (parts.take place).flatten ++ (parts[place] ++ (parts.drop (place + 1)).flatten) := by
  conv_lhs => rw [← List.take_append_drop place parts]
  rw [List.flatten_append, List.drop_eq_getElem_cons inside, List.flatten_cons]

/-- The place to go on from is one of the keys, if there are any. -/
theorem Place.chosen_inside {keys : List Key} {key : Key} {index : Nat} {found : Bool}
    (place : tree.Place keys key index found) (occupied : keys ≠ []) :
    (if found then index else index - 1) < keys.length := by
  cases found with
  | true => exact (place.equal rfl).1
  | false =>
    have within := place.within
    have nonempty := List.length_pos_iff.mpr occupied
    simp only [Bool.false_eq_true, if_false]
    omega

section Separation

variable [TransCmp tree.schema.compare] {keys : List Key} {key : Key} {index : Nat} {found : Bool}
variable (place : tree.Place keys key index found)
include place

/-- Whatever is smaller than a key up to the place to go on from is smaller than the key
that is sought. -/
theorem Place.before_of_le {left : Key} {chosen : Nat} (inside : chosen < keys.length)
    (upTo : chosen ≤ if found then index else index - 1) (positive : 0 < chosen)
    (smaller : tree.Before left keys[chosen]) : tree.Before left key := by
  by_cases strictly : chosen < index
  · exact smaller.trans (place.before chosen inside strictly)
  · cases found with
    | true =>
      obtain ⟨_, equal⟩ := place.equal rfl
      have same : chosen = index := by simp only [if_true] at upTo; omega
      subst same
      exact smaller.of_eq equal
    | false =>
      simp only [Bool.false_eq_true, if_false] at upTo
      omega

/-- Whatever is not smaller than a key behind the place to go on from is greater than the
key that is sought. -/
theorem Place.before_of_lt {right : Key} {chosen : Nat} (inside : chosen < keys.length)
    (beyond : (if found then index else index - 1) < chosen)
    (notSmaller : ¬ tree.Before right keys[chosen]) : tree.Before key right := by
  refine (place.behind chosen inside ?_ ?_).of_not notSmaller
  · cases found <;> simp at beyond <;> omega
  · rintro ⟨rfl, rfl⟩
    simp at beyond

end Separation

section Subtrees

variable [TransCmp tree.schema.compare] {entries : List (Key × UInt32)} {parts : List (List Node)}
variable {key : Key} {index : Nat} {found : Bool}
variable (separates : tree.Separates entries parts) (lengths : parts.length = entries.length)
variable (place : tree.Place (entries.map Prod.fst) key index found)
include separates lengths place

/-- All keys in the subtrees to the left of the one to go on in are smaller. -/
theorem Separates.smaller_left {chosen : Nat} (chosenAt : (if found then index else index - 1) = chosen)
    (chosenInside : chosen < entries.length) :
    ∀ record ∈ tree.recordsIn (parts.take chosen).flatten, tree.Before record.1 key := by
  intro record member
  obtain ⟨part, inLeft, inPart⟩ := mem_recordsIn_flatten.mp member
  obtain ⟨left, inside, rfl⟩ := List.mem_iff_getElem.mp inLeft
  rw [List.length_take] at inside
  have next : left + 1 < (entries.map Prod.fst).length := by rw [List.length_map]; omega
  refine place.before_of_le next (by omega) (Nat.succ_pos left) ?_
  rw [List.getElem_take] at inPart
  rw [List.getElem_map]
  exact separates.below left _ _ (List.getElem?_eq_getElem (by omega))
    (List.getElem?_eq_getElem (by omega)) record inPart

/-- All keys in the subtrees to the right of the one to go on in are greater. -/
theorem Separates.greater_right {chosen : Nat} (chosenAt : (if found then index else index - 1) = chosen) :
    ∀ record ∈ tree.recordsIn (parts.drop (chosen + 1)).flatten, tree.Before key record.1 := by
  intro record member
  obtain ⟨part, inRight, inPart⟩ := mem_recordsIn_flatten.mp member
  obtain ⟨beyond, inside, rfl⟩ := List.mem_iff_getElem.mp inRight
  rw [List.length_drop] at inside
  have right : chosen + 1 + beyond < (entries.map Prod.fst).length := by rw [List.length_map]; omega
  refine place.before_of_lt right (by omega) ?_
  rw [List.getElem_drop] at inPart
  rw [List.getElem_map]
  exact separates.above _ _ _ (by omega) (List.getElem?_eq_getElem (by omega))
    (List.getElem?_eq_getElem (by omega)) record inPart

end Subtrees

section Scans

variable [TransCmp tree.schema.compare] {node : Node} (verified : tree.verify node = .ok ())
variable (key : Key)
include verified

/-- Bisecting a verified leaf finds the place of a key among its records. -/
theorem scan_leaf (kind : node.kind = .leaf)
    (ascending : (tree.recordsOf node).Pairwise fun left right => tree.Before left.1 right.1) :
    ∃ index found, tree.scan node key = .ok (index, found) ∧
      tree.Place ((tree.recordsOf node).map Prod.fst) key index found := by
  refine scan_place ?_ (List.pairwise_map.mpr ascending) key ?_
  · intro index inside
    rw [List.length_map] at inside
    rw [List.getElem_map]
    exact keyAt_of_leafRecord (leafRecord_of_verified verified kind index inside)
  · rw [List.length_map]
    exact length_recordsOf verified kind

/-- Bisecting a verified index node finds the place of a key among its entries. -/
theorem scan_index (kind : node.kind = .index)
    (ascending : (tree.entriesOf node).Pairwise fun left right => tree.Before left.1 right.1) :
    ∃ index found, tree.scan node key = .ok (index, found) ∧
      tree.Place ((tree.entriesOf node).map Prod.fst) key index found := by
  refine scan_place ?_ (List.pairwise_map.mpr ascending) key ?_
  · intro index inside
    rw [List.length_map] at inside
    rw [List.getElem_map]
    exact keyAt_of_indexRecord (indexRecord_of_verified verified kind index inside)
  · rw [List.length_map]
    exact length_entriesOf verified kind

end Scans

/-- A descent from a node finds where its key cuts the leaves under the node. The
induction follows the subtree. In an index node the keys of the entries keep the leaves
of all other subtrees on their side of the key that is sought. -/
theorem descend_cut [TransCmp tree.schema.compare] (key : Key) {levels : Nat} {number : UInt32}
    {leaves : List Node} (spans : tree.Spans levels number leaves)
    (ascending : (tree.recordsIn leaves).Pairwise fun left right => tree.Before left.1 right.1) :
    ∃ before leaf behind index found, leaves = before ++ leaf :: behind ∧
      ((tree.direct (m := Id)).descend key levels number).run =
        .ok ⟨some ⟨leaf.number, index⟩, found⟩ ∧
      tree.Cut key before leaf behind index found := by
  induction spans with
  | @leaf levels number node stored kind =>
    have verified := (tree.stored_eq_ok.mp stored).2
    obtain ⟨index, found, scanned, place⟩ := scan_leaf verified key kind (by simpa using ascending)
    refine ⟨[], node, [], index, found, rfl, ?_, by simp, by simp, place⟩
    rw [number_of_stored stored]
    exact descend_leaf stored scanned kind levels
  | @index levels number node parts stored kind occupied entriesAscending lengths below separates
      inductionHypothesis =>
    have verified := (tree.stored_eq_ok.mp stored).2
    obtain ⟨index, found, scanned, place⟩ := scan_index verified key kind entriesAscending
    have chosenInside := place.chosen_inside (by simpa using occupied)
    rw [List.length_map] at chosenInside
    have descended := descend_index stored scanned kind
      (by rw [← length_entriesOf verified kind]; simpa using occupied)
      (indexRecord_of_verified verified kind _ chosenInside) levels
    generalize chosenAt : (if found then index else index - 1) = chosen at chosenInside descended
    have inside : chosen < parts.length := lengths ▸ chosenInside
    rw [flatten_at inside, recordsIn_append, recordsIn_append] at ascending
    have ascendingBelow := (List.pairwise_append.mp (List.pairwise_append.mp ascending).2.1).1
    obtain ⟨before, leaf, behind, position, known, split, reached, cut⟩ :=
      inductionHypothesis chosen _ _ (List.getElem?_eq_getElem chosenInside)
        (List.getElem?_eq_getElem inside) ascendingBelow
    refine ⟨(parts.take chosen).flatten ++ before, leaf,
      behind ++ (parts.drop (chosen + 1)).flatten, position, known, ?_, descended.trans reached,
      cut.widen ?_ ?_⟩
    · rw [flatten_at inside, split, List.append_assoc, List.append_assoc, List.cons_append]
    · exact separates.smaller_left lengths place chosenAt chosenInside
    · exact separates.greater_right lengths place chosenAt

end Tree

end HfsPlus
