import HfsPlus.FileSystem.Summary
import Mathlib.Data.List.Induction
import Mathlib.Data.List.Sort
import Mathlib.Data.List.TakeDrop
import Mathlib.Data.List.TakeWhile
import Mathlib.Order.Basic

/-!
# Rankings

A ranking is the beginning of a list in stable order: by descending rank, and among equals in the
order of arrival. There is one such order of any items, `StableOrder.unique`. A new item comes
behind all items of at least its rank, and where only a beginning of the order is kept, what was
dropped earlier makes no difference to where it comes. So items that are put into an empty ranking
one after the other leave it with the first of all of them, `foldl_pushRanked`.
-/

namespace HfsPlus

namespace Ranking

variable {α : Type} (rank : α → Nat)

/-- Items by descending rank, and in the order of arrival among equals. -/
def ordered (items : List α) : List α :=
  items.mergeSort fun left right => decide (rank right ≤ rank left)

/-- As many of them as a ranking keeps. -/
def selection (items : List α) : List α := (ordered rank items).take rankingLength

/-- Put an item into a list behind all items of at least its rank. -/
def placed (sorted : List α) (item : α) : List α :=
  sorted.orderedInsert (fun new other => rank other < rank new) item

/-- A list has some items in stable order. -/
structure StableOrder (items sorted : List α) : Prop where
  descending : sorted.Pairwise fun left right => rank right ≤ rank left
  /-- Items of one rank are the same on both sides, in the same order. -/
  arrival : ∀ value, sorted.filter (rank · == value) = items.filter (rank · == value)

variable {rank} {items sorted : List α}

/-- Sorting by merging gives the stable order. Items of one rank are in order already, so it keeps
them in their order. -/
theorem stableOrder_ordered (items : List α) : StableOrder rank items (ordered rank items) := by
  have transitive : ∀ first second third : α, decide (rank second ≤ rank first) = true →
      decide (rank third ≤ rank second) = true → decide (rank third ≤ rank first) = true := by
    simp only [decide_eq_true_eq]
    omega
  have total : ∀ first second : α,
      (decide (rank second ≤ rank first) || decide (rank first ≤ rank second)) = true := by
    simp only [Bool.or_eq_true, decide_eq_true_eq]
    omega
  constructor
  · exact (List.pairwise_mergeSort transitive total items).imp of_decide_eq_true
  · intro value
    have alike : (items.filter (rank · == value)).Pairwise fun left right =>
        decide (rank right ≤ rank left) = true := by
      refine List.pairwise_of_forall_mem_list fun left first right second => ?_
      have left := (List.mem_filter.mp first).2
      have right := (List.mem_filter.mp second).2
      simp only [beq_iff_eq] at left right
      simp [left, right]
    have kept := (List.sublist_mergeSort transitive total alike List.filter_sublist).filter
      (rank · == value)
    simp only [List.filter_filter, Bool.and_self] at kept
    exact (kept.eq_of_length ((List.mergeSort_perm items _).filter _).length_eq.symm).symm

/-- The head of a list in descending order has the greatest rank of all its items. -/
theorem rank_le_head {first item : α} {later : List α}
    (descending : (first :: later).Pairwise fun left right => rank right ≤ rank left)
    (member : item ∈ first :: later) : rank item ≤ rank first := by
  rcases List.mem_cons.mp member with rfl | behind
  · exact Nat.le_refl _
  · exact List.rel_of_pairwise_cons descending behind

section Filters

variable {left right : List α}

/-- Lists with the same items of each rank have the same items. -/
theorem mem_iff_of_filters
    (same : ∀ value, left.filter (rank · == value) = right.filter (rank · == value)) (item : α) :
    item ∈ left ↔ item ∈ right := by
  have among := congrArg (item ∈ ·) (same (rank item))
  simpa using among

/-- Lists in descending order with the same items of each rank are the same. The induction is on
one of them. -/
theorem eq_of_filters
    (leftDescending : left.Pairwise fun left right => rank right ≤ rank left)
    (rightDescending : right.Pairwise fun left right => rank right ≤ rank left)
    (same : ∀ value, left.filter (rank · == value) = right.filter (rank · == value)) :
    left = right := by
  induction left generalizing right with
  | nil =>
    refine (List.eq_nil_iff_forall_not_mem.mpr fun item there => ?_).symm
    exact List.not_mem_nil ((mem_iff_of_filters same item).mpr there)
  | cons first left inductionHypothesis =>
    have members := mem_iff_of_filters same
    cases right with
    | nil => exact (List.not_mem_nil ((members first).mp List.mem_cons_self)).elim
    | cons other right =>
      have value : rank first = rank other :=
        Nat.le_antisymm (rank_le_head rightDescending ((members first).mp List.mem_cons_self))
          (rank_le_head leftDescending ((members other).mpr List.mem_cons_self))
      have heads := same (rank first)
      rw [List.filter_cons_of_pos (by simp), List.filter_cons_of_pos (by simp [value])] at heads
      obtain ⟨rfl, -⟩ := List.cons.inj heads
      have tails : ∀ value, left.filter (rank · == value) = right.filter (rank · == value) := by
        intro value
        have whole := same value
        rw [List.filter_cons, List.filter_cons] at whole
        split at whole
        · exact (List.cons.inj whole).2
        · exact whole
      rw [inductionHypothesis (List.pairwise_cons.mp leftDescending).2
        (List.pairwise_cons.mp rightDescending).2 tails]

end Filters

/-- There is one stable order. -/
theorem StableOrder.unique {other : List α} (stable : StableOrder rank items sorted)
    (also : StableOrder rank items other) : sorted = other :=
  eq_of_filters stable.descending also.descending fun value =>
    (stable.arrival value).trans (also.arrival value).symm

section Placing

variable (item : α)

/-- A list in descending order stays so. -/
theorem descending_placed
    (descending : sorted.Pairwise fun left right => rank right ≤ rank left) :
    (placed rank sorted item).Pairwise fun left right => rank right ≤ rank left := by
  induction sorted with
  | nil => exact List.pairwise_singleton _ _
  | cons first later inductionHypothesis =>
    obtain ⟨least, behind⟩ := List.pairwise_cons.mp descending
    unfold placed at inductionHypothesis ⊢
    rw [List.orderedInsert_cons]
    split
    next smaller =>
      refine List.pairwise_cons.mpr ⟨fun other member => ?_, descending⟩
      exact Nat.le_of_lt (Nat.lt_of_le_of_lt (rank_le_head descending member) smaller)
    next reaches =>
      refine List.pairwise_cons.mpr ⟨fun other member => ?_, inductionHypothesis behind⟩
      rcases (List.mem_orderedInsert _).mp member with rfl | among
      · exact Nat.le_of_not_lt reaches
      · exact least other among

/-- The item comes last among those of its rank. If it is put first, all others are of a smaller
rank. -/
theorem filter_placed (descending : sorted.Pairwise fun left right => rank right ≤ rank left)
    (value : Nat) : (placed rank sorted item).filter (rank · == value) =
      (sorted ++ [item]).filter (rank · == value) := by
  induction sorted with
  | nil => rfl
  | cons first later inductionHypothesis =>
    unfold placed at inductionHypothesis ⊢
    rw [List.orderedInsert_cons]
    split
    next smaller =>
      have apart : rank item = value → (first :: later).filter (rank · == value) = [] := by
        rintro rfl
        refine List.filter_eq_nil_iff.mpr fun other member => ?_
        have bound := rank_le_head descending member
        simp only [beq_iff_eq]
        omega
      rw [← List.singleton_append, List.filter_append, List.filter_append]
      by_cases equal : rank item = value
      · rw [apart equal, List.append_nil, List.nil_append]
      · have none_ : [item].filter (rank · == value) = [] :=
          List.filter_cons_of_neg (by simpa using equal)
        rw [none_, List.nil_append, List.append_nil]
    next reaches =>
      rw [List.cons_append, List.filter_cons, List.filter_cons,
        inductionHypothesis (List.pairwise_cons.mp descending).2]

/-- So a stable order stays one when an item comes. -/
theorem StableOrder.concat (stable : StableOrder rank items sorted) :
    StableOrder rank (items ++ [item]) (placed rank sorted item) where
  descending := descending_placed item stable.descending
  arrival value := by
    rw [filter_placed item stable.descending, List.filter_append, List.filter_append,
      stable.arrival]

/-- Where a beginning of the list is kept, it does not matter what was dropped before. -/
theorem take_placed (kept : Nat) (sorted : List α) :
    (placed rank (sorted.take kept) item).take kept = (placed rank sorted item).take kept := by
  unfold placed
  induction sorted generalizing kept with
  | nil => rw [List.take_nil]
  | cons first later inductionHypothesis =>
    cases kept with
    | zero => rfl
    | succ kept =>
      rw [List.take_succ_cons, List.orderedInsert_cons, List.orderedInsert_cons]
      split
      · have begins : first :: later.take kept = (first :: later).take (kept + 1) := rfl
        rw [List.take_succ_cons, List.take_succ_cons, begins, List.take_take,
          Nat.min_eq_left (Nat.le_succ kept)]
      · rw [List.take_succ_cons, List.take_succ_cons, inductionHypothesis]

end Placing

section Pushing

variable {rank : α → UInt64} {ranking : List α}

/-- An item is put into a ranking at its place, and what is too much is dropped. If the last item of
a full ranking is of at least its rank, so are all before it, and it is the one that is dropped. -/
theorem pushRanked_eq (item : α)
    (descending : ranking.Pairwise fun left right => (rank right).toNat ≤ (rank left).toNat)
    (short : ranking.length ≤ rankingLength) :
    pushRanked rank ranking item =
      (placed (fun item => (rank item).toNat) ranking item).take rankingLength := by
  have reaches (other : α) : decide (rank item ≤ rank other) =
      decide (¬ (rank other).toNat < (rank item).toNat) := by
    simp [UInt64.le_iff_toNat_le]
  unfold pushRanked placed
  rw [List.orderedInsert_eq_take_drop]
  dsimp only
  simp only [reaches]
  rw [List.span_eq_takeWhile_dropWhile]
  split
  next full =>
    obtain ⟨long, some⟩ := Bool.and_eq_true_iff.mp full
    obtain ⟨last, final, atLeast⟩ := (Option.any_eq_true _ _).mp some
    have all : ∀ other ∈ ranking, decide (¬ (rank other).toNat < (rank item).toNat) = true := by
      obtain ⟨before, rfl⟩ := List.getLast?_eq_some_iff.mp final
      intro other member
      have smallest : (rank last).toNat ≤ (rank other).toNat := by
        rcases List.mem_append.mp member with earlier | same
        · exact (List.pairwise_append.mp descending).2.2 _ earlier _ List.mem_cons_self
        · rw [List.mem_singleton.mp same]
      have reached := of_decide_eq_true atLeast
      exact decide_eq_true (by omega)
    have length : ranking.length = rankingLength :=
      Nat.le_antisymm short (of_decide_eq_true long)
    rw [List.takeWhile_eq_self_iff.mpr all, List.take_left' length]
  next => rfl

/-- Putting items into an empty ranking, one after the other, leaves it with the first of all of
them in stable order. The induction is on how many have come. -/
theorem foldl_pushRanked (rank : α → UInt64) (items : List α) :
    items.foldl (pushRanked rank) [] = selection (fun item => (rank item).toNat) items := by
  induction items using List.reverseRecOn with
  | nil => simp [selection, ordered]
  | append_singleton items item inductionHypothesis =>
    have stable : StableOrder (fun item => (rank item).toNat) items _ := stableOrder_ordered items
    have next := (stable.concat item).unique (stableOrder_ordered (items ++ [item]))
    rw [List.foldl_concat, inductionHypothesis, selection, selection, ← next, ← take_placed]
    exact pushRanked_eq item (stable.descending.sublist (List.take_sublist _ _))
      (List.length_take_le _ _)

/-- Only items are selected. -/
theorem mem_of_mem_selection {rank : α → Nat} {items : List α} {item : α}
    (selected : item ∈ selection rank items) : item ∈ items :=
  List.mem_mergeSort.mp (List.mem_of_mem_take selected)

/-- What is selected by the ranks of what items are turned into is what the items selected by
these ranks are turned into. -/
theorem selection_map {β : Type} {rank : β → Nat} {itemRank : α → Nat} (turned : α → β)
    {items : List α} (same : ∀ item ∈ items, rank (turned item) = itemRank item) :
    selection rank (items.map turned) = (selection itemRank items).map turned := by
  unfold selection ordered
  rw [List.map_take]
  congr 1
  refine (List.map_mergeSort fun left first right second => ?_).symm
  rw [same left first, same right second]

/-- Ranks that are the same of all items select the same. -/
theorem selection_congr {rank other : α → Nat} {items : List α}
    (same : ∀ item ∈ items, rank item = other item) :
    selection rank items = selection other items := by
  simpa using selection_map id same

end Pushing

end Ranking

end HfsPlus
