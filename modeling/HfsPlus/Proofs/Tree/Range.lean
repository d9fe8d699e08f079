import HfsPlus.Proofs.Tree.Lookup

/-!
# Going through a range of records

Whoever wants a range of records searches for its first key and runs a cursor from there.
Where the search ends, in the middle of a leaf, between two leaves, before the first record
or behind the last, is nothing that shows: the cursor is shown the records that are not
smaller than the key, in their order.

Often the range is a group: the keys of a file or folder have its number in front, so they
stand together, and the least of them is known without looking. Of the records from there
on, the group is the part up to the first record of another one.
-/

namespace HfsPlus

open Std (OrientedCmp TransCmp)

namespace Tree

variable {Key Value : Type} {tree : Tree Key Value} {records : List (Key × Value)}

/-- The records of a tree that is empty, or whose nodes say consistently where they are. -/
inductive Holds (tree : Tree Key Value) : List (Key × Value) → Prop
  | empty : tree.isEmpty = true → Holds tree []
  | leaves {leaves : List Node} : tree.WellFormed leaves → Holds tree (tree.recordsIn leaves)

/-- The records that a tree holds ascend. -/
theorem Holds.ascending (holds : tree.Holds records) :
    records.Pairwise fun left right => tree.Before left.1 right.1 := by
  cases holds with
  | empty _ => exact List.Pairwise.nil
  | leaves wellFormed => exact wellFormed.ascending

/-- A tree of which the root is a leaf holds the records of this leaf. -/
theorem Holds.of_leaf {leaf : Node} (rooted : tree.header.rootNode ≠ 0)
    (occupied : tree.header.leafRecords ≠ 0)
    (started : tree.header.firstLeafNode = tree.header.rootNode)
    (stored : tree.stored tree.header.rootNode = .ok leaf) (kind : leaf.kind = .leaf)
    (last : leaf.forwardLink = 0)
    (ascending : (tree.recordsOf leaf).Pairwise fun left right => tree.Before left.1 right.1) :
    tree.Holds (tree.recordsOf leaf) := by
  have records : tree.recordsIn [leaf] = tree.recordsOf leaf := List.append_nil _
  have number := number_of_stored stored
  rw [← records] at ascending ⊢
  refine .leaves ⟨rooted, occupied, ?_, .leaf stored kind, ?_, ascending⟩
  · rwa [started]
  · rw [started]
    exact ⟨rooted, number.symm, last⟩

/-- A look-up finds the record with an equal key. -/
theorem Holds.find_direct [TransCmp tree.schema.compare] (holds : tree.Holds records) (key : Key) :
    ((tree.direct (m := Id)).find key).run =
      .ok (records.find? fun record => (tree.schema.compare record.1 key).isEq) := by
  cases holds with
  | empty isEmpty =>
    rw [Access.find, Access.search, show (tree.direct (m := Id)).tree.isEmpty = true from isEmpty]
    rfl
  | leaves wellFormed => exact wellFormed.find_direct key

/-- Of the records that a tree holds, one has a key at most. -/
theorem Holds.unique [TransCmp tree.schema.compare] (holds : tree.Holds records)
    {left right : Key × Value} (leftMember : left ∈ records) (rightMember : right ∈ records)
    (equal : tree.schema.compare left.1 right.1 = .eq) : left = right :=
  eq_of_compare_eq holds.ascending leftMember rightMember equal

/-- From the place of a key on, a cursor is shown the records that are not smaller. -/
theorem Holds.range [TransCmp tree.schema.compare] (holds : tree.Holds records) (key : Key) :
    ∃ start cursor, ((tree.direct (m := Id)).search key).run = .ok start ∧
      ((tree.direct (m := Id)).recordsFrom start.position).run = .ok cursor ∧
      ∀ {σ : Type} (visit : σ → Except Error (Key × Value) → σ × Bool) (state : σ),
        (tree.direct (m := Id)).fold visit state cursor =
          pure (visitAll visit state
            ((records.filter fun record => (tree.schema.compare record.1 key).isGE).map .ok)) := by
  cases holds with
  | empty isEmpty =>
    refine ⟨⟨none, false⟩, ⟨none, 0, 0⟩, ?_, rfl, ?_⟩
    · rw [Access.search, show (tree.direct (m := Id)).tree.isEmpty = true from isEmpty]
      rfl
    · intro σ visit state
      rw [Access.fold]
      rfl
  | leaves wellFormed =>
    obtain ⟨before, leaf, behind, index, found, rfl, searched, cut⟩ := wellFormed.search_cut key
    have linked := Linked.of_append wellFormed.linked
    have sound : tree.Leaves (leaf :: behind) := fun node member =>
      wellFormed.sound node (List.mem_append_right _ member)
    have stored := (sound leaf List.mem_cons_self).1
    refine ⟨_, ⟨some leaf, index, 0⟩, searched, ?_, ?_⟩
    · rw [Access.recordsFrom, run_bind_direct, direct_node, if_pos rfl, stored]
      rfl
    · intro σ visit state
      rw [fold_chain visit state sound linked.2.2,
        recordsIn_cut before leaf behind index, cut.halves.filter_eq]

end Tree

/-- Keys are ordered by the number of a group first, and of each group a key is known that is
not greater than any other of it. -/
structure Grouped {Key : Type} (order : Key → Key → Ordering) (group : Key → UInt32)
    (first : UInt32 → Key) : Prop where
  /-- Groups stand in the order of their numbers. -/
  apart : ∀ left right, group left < group right → order left right = .lt
  /-- The known key belongs to its group. -/
  inside : ∀ number, group (first number) = number
  /-- No key of the group is smaller. -/
  least : ∀ key, (order key (first (group key))).isGE

section Grouped

variable {Key Value : Type} {order : Key → Key → Ordering}
variable {group : Key → UInt32} {first : UInt32 → Key} (grouped : Grouped order group first)
include grouped

/-- A key from the first of a group on is not in a group before it. -/
theorem Grouped.group_ge {number : UInt32} {key : Key} (from_ : (order key (first number)).isGE) :
    number ≤ group key := by
  refine UInt32.not_lt.mp fun below => ?_
  rw [grouped.apart key (first number) (by rwa [grouped.inside])] at from_
  cases from_

variable [OrientedCmp order]

/-- Along ascending keys the numbers of their groups do not descend. -/
theorem Grouped.group_le {left right : Key} (before : order left right = .lt) :
    group left ≤ group right := by
  refine UInt32.not_lt.mp fun below => ?_
  have behind := OrientedCmp.gt_of_lt (grouped.apart right left below)
  rw [before] at behind
  cases behind

/-- Of ascending records from the first key of a group on, the group is what stands before the
first record of another group. The induction is on the records: groups do not descend, so once one
of another group is met, none of the group follows. -/
theorem Grouped.takeWhile_eq {records : List (Key × Value)}
    (ascending : records.Pairwise fun left right => order left.1 right.1 = .lt)
    {number : UInt32} (from_ : ∀ record ∈ records, (order record.1 (first number)).isGE) :
    (records.takeWhile fun record => group record.1 = number) =
      records.filter fun record => group record.1 = number := by
  induction records with
  | nil => rfl
  | cons record later inductionHypothesis =>
    obtain ⟨smallest, ascendingLater⟩ := List.pairwise_cons.mp ascending
    have fromLater : ∀ other ∈ later, (order other.1 (first number)).isGE := fun other member =>
      from_ other (List.mem_cons_of_mem record member)
    by_cases here : group record.1 = number
    · simp [here, inductionHypothesis ascendingLater fromLater]
    · have noneLater : later.filter (fun other => group other.1 = number) = [] := by
        refine List.filter_eq_nil_iff.mpr fun other member => ?_
        have above := grouped.group_ge (from_ record List.mem_cons_self)
        have further := grouped.group_le (smallest other member)
        have beyond : number < group record.1 := UInt32.lt_of_le_of_ne above (Ne.symm here)
        have outside : group other.1 ≠ number := by
          rintro rfl
          exact UInt32.lt_irrefl _ (UInt32.lt_of_lt_of_le beyond further)
        simpa using outside
      simp [here, noneLater]

/-- Of ascending records those of a group are the ones from its first key on, up to the first
record of another group. -/
theorem Grouped.takeWhile_filter {records : List (Key × Value)}
    (ascending : records.Pairwise fun left right => order left.1 right.1 = .lt)
    (number : UInt32) :
    (records.filter fun record => (order record.1 (first number)).isGE).takeWhile
        (fun record => group record.1 = number) =
      records.filter fun record => group record.1 = number := by
  have from_ : ∀ record ∈ records.filter (fun record => (order record.1 (first number)).isGE),
      (order record.1 (first number)).isGE := fun record member => (List.mem_filter.mp member).2
  rw [grouped.takeWhile_eq (ascending.filter _) from_, List.filter_filter]
  refine List.filter_congr fun record _ => ?_
  by_cases here : group record.1 = number
  · have least := grouped.least record.1
    rw [here] at least
    simp [here, least]
  · simp [here]

end Grouped

section Visitors

variable {Key Value σ : Type} {group : Key → UInt32} {number : UInt32}
variable {visit : σ → Except Error (Key × Value) → σ × Bool}

/-- A visitor who has enough at a record of another group sees no further than the first of
them. -/
theorem visitAll_takeWhile
    (ends : ∀ state record, group record.1 ≠ number → visit state (.ok record) = (state, false))
    (state : σ) (records : List (Key × Value)) :
    visitAll visit state (records.map .ok) = visitAll visit state
      ((records.takeWhile fun record => group record.1 = number).map .ok) := by
  induction records generalizing state with
  | nil => rfl
  | cons record later inductionHypothesis =>
    by_cases here : group record.1 = number
    · simp only [here, List.map_cons, List.takeWhile_cons, decide_true, ↓reduceIte, visitAll]
      rcases visit state (.ok record) with ⟨next, _ | _⟩
      · rfl
      · exact inductionHypothesis next
    · simp [here, visitAll, ends state record here]

/-- From the place of the first key of a group, such a visitor is shown the records of the group
and no others, wherever they start and end in the leaves, and also if there are none. -/
theorem Tree.Holds.range_group {tree : Tree Key Value} {records : List (Key × Value)}
    [TransCmp tree.schema.compare] (holds : tree.Holds records) {first : UInt32 → Key}
    (grouped : Grouped tree.schema.compare group first) (number : UInt32) :
    ∃ start cursor, ((tree.direct (m := Id)).search (first number)).run = .ok start ∧
      ((tree.direct (m := Id)).recordsFrom start.position).run = .ok cursor ∧
      ∀ {σ : Type} (visit : σ → Except Error (Key × Value) → σ × Bool) (state : σ),
        (∀ state record, group record.1 ≠ number → visit state (.ok record) = (state, false)) →
        (tree.direct (m := Id)).fold visit state cursor =
          pure (visitAll visit state
            ((records.filter fun record => group record.1 = number).map .ok)) := by
  obtain ⟨start, cursor, searched, placed, shown⟩ := holds.range (first number)
  refine ⟨start, cursor, searched, placed, fun visit state ends => ?_⟩
  rw [shown visit state, visitAll_takeWhile ends, grouped.takeWhile_filter holds.ascending]

end Visitors

end HfsPlus
