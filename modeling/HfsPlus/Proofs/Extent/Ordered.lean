import HfsPlus.Extent
import Mathlib.Data.List.Basic
import Mathlib.Data.List.TakeDrop
import Mathlib.Data.List.TakeWhile

/-!
# Extents in order

A list of extents denotes a partial map: a block lies where an extent that holds it puts it,
and nowhere if none does. For this to be a map, and for a look-up to find the place although it
tries a single extent, the extents have to be `Ordered`: none is empty, and each ends before the
next one starts. Such extents are contiguous exactly if they hold every block below the last one
that they map.
-/

namespace HfsPlus

/-- Where an extent puts a block that it holds, and how many of its blocks are left from there
on. -/
def Extent.place (extent : Extent) (block : Nat) : Nat × Nat :=
  (extent.startBlock + (block - extent.logicalStart), extent.logicalEnd - block)

/-- An extent ends before some blocks that follow one another, or starts behind them. -/
def Extent.Apart (extent : Extent) (first count : Nat) : Prop :=
  extent.logicalEnd ≤ first ∨ first + count ≤ extent.logicalStart

instance (extent : Extent) (first count : Nat) : Decidable (extent.Apart first count) :=
  inferInstanceAs (Decidable (_ ∨ _))

/-- Where neither is empty, an extent is apart from a range exactly if it holds no block of it. Of
an extent and a range that meet, the first block of the one or of the other is common to both. -/
theorem Extent.apart_iff {extent : Extent} {first count : Nat} (nonempty : 0 < extent.blockCount)
    (positive : 0 < count) :
    extent.Apart first count ↔
      ∀ block, first ≤ block → block < first + count → ¬ extent.contains block = true := by
  unfold Extent.Apart Extent.logicalEnd
  constructor
  · intro apart block from_ before holds
    have bounds := (extent.contains_iff block).mp holds
    omega
  · intro free
    by_contra meeting
    have atFirst := free first (Nat.le_refl first) (by omega)
    have atStart := free extent.logicalStart
    rw [Extent.contains_iff] at atFirst atStart
    omega

namespace ExtentList

/-- Extents that are not empty and of which each ends before those behind it start. -/
structure Ordered (extents : ExtentList) : Prop where
  disjoint : extents.Pairwise fun first second => first.logicalEnd ≤ second.logicalStart
  nonempty : ∀ extent ∈ extents, 0 < extent.blockCount

/-- There are no extents at first. -/
theorem ordered_nil : Ordered [] := ⟨.nil, by simp⟩

/-- Around one of several ordered extents the others end before it starts or start behind it. -/
theorem ordered_around {before after : ExtentList} {extent : Extent} :
    Ordered (before ++ extent :: after) ↔ Ordered before ∧ 0 < extent.blockCount ∧ Ordered after ∧
      (∀ other ∈ before, other.logicalEnd ≤ extent.logicalStart) ∧
      (∀ other ∈ after, extent.logicalEnd ≤ other.logicalStart) := by
  constructor
  · rintro ⟨disjoint, nonempty⟩
    obtain ⟨front, behind, across⟩ := List.pairwise_append.mp disjoint
    obtain ⟨late, back⟩ := List.pairwise_cons.mp behind
    refine ⟨⟨front, ?_⟩, ?_, ⟨back, ?_⟩, ?_, late⟩
    · exact fun other member => nonempty other (List.mem_append_left _ member)
    · exact nonempty extent (by simp)
    · exact fun other member => nonempty other (by simp [member])
    · exact fun other member => across other member extent List.mem_cons_self
  · rintro ⟨front, positive, back, early, late⟩
    constructor
    · refine List.pairwise_append.mpr ⟨front.disjoint, ?_, ?_⟩
      · exact List.pairwise_cons.mpr ⟨late, back.disjoint⟩
      · intro other isBefore next isBehind
        have ends := early other isBefore
        rcases List.mem_cons.mp isBehind with rfl | isAfter
        · exact ends
        · have starts := late next isAfter
          unfold Extent.logicalEnd at ends starts ⊢
          omega
    · intro other member
      rcases List.mem_append.mp member with isBefore | isBehind
      · exact front.nonempty other isBefore
      · rcases List.mem_cons.mp isBehind with rfl | isAfter
        · exact positive
        · exact back.nonempty other isAfter

section Lookup

variable {extents : ExtentList} {extent other : Extent} {block : Nat} {place : Nat × Nat}

/-- The first of several ordered extents ends before the others start. -/
theorem ordered_cons {later : ExtentList} {extent : Extent} :
    Ordered (extent :: later) ↔ 0 < extent.blockCount ∧ Ordered later ∧
      ∀ other ∈ later, extent.logicalEnd ≤ other.logicalStart := by
  have around : Ordered ([] ++ extent :: later) ↔ _ := ordered_around
  simpa [ordered_nil] using around

/-- No extent starts before the first one. -/
theorem Ordered.head_le {later : ExtentList} {head extent : Extent}
    (ordered : Ordered (head :: later)) (member : extent ∈ head :: later) :
    head.logicalStart ≤ extent.logicalStart := by
  obtain ⟨-, -, late⟩ := ordered_cons.mp ordered
  rcases List.mem_cons.mp member with rfl | isLater
  · exact Nat.le_refl _
  · have starts := late extent isLater
    unfold Extent.logicalEnd at starts
    omega

/-- What is found is the place that an extent gives to a block that it holds. -/
theorem exists_of_lookup (found : lookup extents block = some place) :
    ∃ extent ∈ extents, extent.contains block = true ∧ place = extent.place block := by
  unfold lookup at found
  split at found
  · cases found
  next extent last =>
    have member := (List.takeWhile_prefix _).subset (List.mem_of_getLast? last)
    by_cases inside : extent.contains block = true
    · rw [if_pos inside] at found
      refine ⟨extent, member, inside, ?_⟩
      have bounds := (extent.contains_iff block).mp inside
      obtain ⟨rfl⟩ := found
      simp only [Extent.place, Extent.logicalEnd, Prod.mk.injEq, true_and]
      omega
    · rw [if_neg inside] at found
      cases found

variable (ordered : Ordered extents)
include ordered

/-- A block that an extent holds is found in that extent: it is the last one that starts at or
before the block, because those behind it start behind the block. -/
theorem Ordered.lookup_of_mem (member : extent ∈ extents) (inside : extent.contains block = true) :
    lookup extents block = some (extent.place block) := by
  obtain ⟨before, after, rfl⟩ := List.append_of_mem member
  obtain ⟨-, -, -, early, late⟩ := ordered_around.mp ordered
  have bounds := (extent.contains_iff block).mp inside
  have reached : ∀ other ∈ before, decide (other.logicalStart ≤ block) = true := by
    intro other isBefore
    have ends := early other isBefore
    unfold Extent.logicalEnd at ends
    simp only [decide_eq_true_eq]
    omega
  have noneBehind : after.takeWhile (fun other => other.logicalStart ≤ block) = [] := by
    refine List.takeWhile_eq_nil_iff.mpr fun nonempty => ?_
    have starts := late _ (List.get_mem after ⟨0, nonempty⟩)
    unfold Extent.logicalEnd at starts
    simp only [decide_eq_true_eq]
    omega
  have left : extent.blockCount - (block - extent.logicalStart) = extent.logicalEnd - block := by
    unfold Extent.logicalEnd
    omega
  simp [lookup, List.takeWhile_append_of_pos reached, bounds.1, noneBehind, inside, left,
    Extent.place]

/-- Nothing is found exactly where no extent holds the block. -/
theorem Ordered.lookup_eq_none :
    lookup extents block = none ↔ ∀ extent ∈ extents, ¬ extent.contains block = true := by
  constructor
  · intro absent extent member inside
    rw [ordered.lookup_of_mem member inside] at absent
    cases absent
  · intro unheld
    cases found : lookup extents block with
    | none => rfl
    | some place =>
      obtain ⟨extent, member, inside, -⟩ := exists_of_lookup found
      exact absurd inside (unheld extent member)

/-- No two extents hold one block. -/
theorem Ordered.unique (member : extent ∈ extents) (inside : extent.contains block = true)
    (otherMember : other ∈ extents) (otherInside : other.contains block = true) :
    other = extent := by
  obtain ⟨before, after, rfl⟩ := List.append_of_mem member
  obtain ⟨-, -, -, early, late⟩ := ordered_around.mp ordered
  rw [Extent.contains_iff] at inside otherInside
  rcases List.mem_append.mp otherMember with isBefore | isBehind
  · have ends := early other isBefore
    unfold Extent.logicalEnd at ends
    omega
  · rcases List.mem_cons.mp isBehind with same | isAfter
    · exact same
    · have starts := late other isAfter
      unfold Extent.logicalEnd at starts
      omega

/-- One extent more changes the map on its own blocks and nowhere else. -/
theorem Ordered.lookup_extended {extended : ExtentList} {run : Extent} (grown : Ordered extended)
    (members : ∀ extent, extent ∈ extended ↔ extent = run ∨ extent ∈ extents) (block : Nat) :
    lookup extended block =
      if run.contains block then some (run.place block) else lookup extents block := by
  by_cases inside : run.contains block = true
  · rw [if_pos inside]
    exact grown.lookup_of_mem ((members run).mpr (.inl rfl)) inside
  · rw [if_neg inside]
    cases found : lookup extents block with
    | some place =>
      obtain ⟨extent, member, holds, rfl⟩ := exists_of_lookup found
      exact grown.lookup_of_mem ((members extent).mpr (.inr member)) holds
    | none =>
      refine grown.lookup_eq_none.mpr fun extent member => ?_
      rcases (members extent).mp member with rfl | old
      · exact inside
      · exact ordered.lookup_eq_none.mp found extent old

/-- No extent ends behind the last one. -/
theorem Ordered.le_mappedBlocks (member : extent ∈ extents) :
    extent.logicalEnd ≤ mappedBlocks extents := by
  obtain ⟨before, last, rfl⟩ :=
    (List.eq_nil_or_concat' extents).resolve_left (List.ne_nil_of_mem member)
  obtain ⟨-, -, -, early, -⟩ := ordered_around.mp ordered
  have whole : mappedBlocks (before ++ [last]) = last.logicalEnd := by simp [mappedBlocks]
  rw [whole]
  rcases List.mem_append.mp member with isBefore | isLast
  · have ends := early extent isBefore
    unfold Extent.logicalEnd at ends ⊢
    omega
  · rw [List.mem_singleton.mp isLast]

end Lookup

section Contiguous

/-- Behind another extent, a list maps as much as it maps alone. -/
theorem mappedBlocks_cons (extent : Extent) {later : ExtentList} (occupied : later ≠ []) :
    mappedBlocks (extent :: later) = mappedBlocks later := by
  obtain ⟨front, last, rfl⟩ := (List.eq_nil_or_concat' later).resolve_left occupied
  rw [mappedBlocks, ← List.cons_append, List.getLast?_concat]
  simp [mappedBlocks]

/-- Ordered extents from some block on are contiguous from there exactly if they hold every block
up to the last one that they map. The first of them has to start there, since the others start
behind it, and the others have to hold what lies behind its end. -/
theorem Ordered.contiguousFrom_iff {extents : ExtentList} (ordered : Ordered extents)
    {start : Nat} (behind : ∀ extent ∈ extents, start ≤ extent.logicalStart) :
    contiguousFrom start extents = true ↔
      ∀ block, start ≤ block → block < mappedBlocks extents →
        ∃ extent ∈ extents, extent.contains block = true := by
  induction extents generalizing start with
  | nil => simp [contiguousFrom, mappedBlocks]
  | cons extent later inductionHypothesis =>
    obtain ⟨positive, rest, late⟩ := ordered_cons.mp ordered
    have from_ := behind extent List.mem_cons_self
    have reaches := ordered.le_mappedBlocks List.mem_cons_self
    have ends : extent.logicalEnd = extent.logicalStart + extent.blockCount := rfl
    simp only [contiguousFrom, Bool.and_eq_true, beq_iff_eq, inductionHypothesis rest late]
    constructor
    · rintro ⟨rfl, held⟩ block reached inside
      by_cases first : block < extent.logicalEnd
      · exact ⟨extent, List.mem_cons_self, (extent.contains_iff block).mpr ⟨reached, first⟩⟩
      · have occupied : later ≠ [] := by
          rintro rfl
          exact first (by simpa [mappedBlocks] using inside)
        rw [mappedBlocks_cons extent occupied] at inside
        obtain ⟨other, member, holds⟩ := held block (Nat.not_lt.mp first) inside
        exact ⟨other, List.mem_cons_of_mem extent member, holds⟩
    · intro held
      constructor
      · obtain ⟨other, member, holds⟩ := held start (Nat.le_refl start) (by omega)
        have bounds := (other.contains_iff start).mp holds
        rcases List.mem_cons.mp member with rfl | isLater
        · omega
        · have starts := late other isLater
          omega
      · intro block reached inside
        have occupied : later ≠ [] := by
          rintro rfl
          simp [mappedBlocks] at inside
        rw [← mappedBlocks_cons extent occupied] at inside
        obtain ⟨other, member, holds⟩ := held block (by omega) inside
        have bounds := (other.contains_iff block).mp holds
        rcases List.mem_cons.mp member with rfl | isLater
        · omega
        · exact ⟨other, isLater, holds⟩

/-- Ordered extents are contiguous exactly if the blocks that they map are those below the number
of mapped blocks. -/
theorem Ordered.isContiguous_iff {extents : ExtentList} (ordered : Ordered extents) :
    isContiguous extents = true ↔
      ∀ block, lookup extents block ≠ none ↔ block < mappedBlocks extents := by
  have below (block : Nat) (found : lookup extents block ≠ none) : block < mappedBlocks extents := by
    obtain ⟨place, found⟩ := Option.ne_none_iff_exists'.mp found
    obtain ⟨extent, member, inside, -⟩ := exists_of_lookup found
    have bounds := (extent.contains_iff block).mp inside
    have ends := ordered.le_mappedBlocks member
    unfold Extent.logicalEnd at ends
    omega
  have held (block : Nat) : lookup extents block ≠ none ↔
      ∃ extent ∈ extents, extent.contains block = true := by
    simp [ordered.lookup_eq_none]
  unfold isContiguous
  rw [ordered.contiguousFrom_iff fun extent _ => Nat.zero_le _]
  constructor
  · exact fun all block => ⟨below block, fun inside => (held block).mpr (all block (Nat.zero_le _) inside)⟩
  · exact fun precisely block _ inside => (held block).mp ((precisely block).mpr inside)

end Contiguous

end ExtentList

end HfsPlus
