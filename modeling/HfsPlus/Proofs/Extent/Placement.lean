import HfsPlus.Proofs.Extent.Ordered

/-!
# Placing runs in a list of extents

Both ways to place a run keep extents in order. Adding puts it behind everything that is mapped.
Inserting tests only the extents on either side of the place where the run would go; in an ordered
list every other one ends before the one or starts behind the other, so the run is refused exactly
if some block of it is mapped already. What is placed changes the map on the blocks of the run
and nowhere else.
-/

namespace HfsPlus.ExtentList

section Placing

variable {extents : ExtentList} (ordered : Ordered extents)
include ordered

/-- A run that is added keeps the order: it starts where the last extent ends. -/
theorem Ordered.after_add (startBlock blockCount : Nat) :
    Ordered (add extents startBlock blockCount) := by
  unfold add
  split
  · exact ordered
  next notEmpty =>
    refine ordered_around.mpr ⟨ordered, Nat.pos_of_ne_zero notEmpty, ordered_nil, ?_, by simp⟩
    exact fun other member => ordered.le_mappedBlocks member

/-- Adding a run maps its blocks behind those that are mapped, and leaves the others as they are. -/
theorem Ordered.lookup_add (startBlock : Nat) {blockCount : Nat} (positive : 0 < blockCount)
    (block : Nat) :
    lookup (add extents startBlock blockCount) block =
      if mappedBlocks extents ≤ block ∧ block < mappedBlocks extents + blockCount then
        some (startBlock + (block - mappedBlocks extents), mappedBlocks extents + blockCount - block)
      else lookup extents block := by
  have members (extent : Extent) : extent ∈ add extents startBlock blockCount ↔
      extent = ⟨mappedBlocks extents, startBlock, blockCount⟩ ∨ extent ∈ extents := by
    simp [add, Nat.ne_of_gt positive, or_comm]
  rw [ordered.lookup_extended (ordered.after_add startBlock blockCount) members]
  simp only [Extent.contains_iff]
  rfl

end Placing

variable {logicalStart startBlock blockCount : Nat}

/-- Where a list is split for a block, what comes first starts before it. -/
theorem lt_of_mem_before {extents : ExtentList} {extent : Extent}
    (member : extent ∈ (splitBefore extents logicalStart).1) :
    extent.logicalStart < logicalStart := by
  rw [splitBefore, List.span_eq_takeWhile_dropWhile] at member
  simpa using List.mem_takeWhile_imp member

/-- The two parts make up the list. -/
theorem splitBefore_append (extents : ExtentList) (block : Nat) :
    (splitBefore extents block).1 ++ (splitBefore extents block).2 = extents := by
  rw [splitBefore, List.span_eq_takeWhile_dropWhile]
  exact List.takeWhile_append_dropWhile

/-- The first extent of the second part does not start before the block. -/
theorem le_of_head_behind {extents later : ExtentList} {head : Extent}
    (behind : (splitBefore extents logicalStart).2 = head :: later) :
    logicalStart ≤ head.logicalStart := by
  have first := List.head?_dropWhile_not
    (fun extent : Extent => decide (extent.logicalStart < logicalStart)) extents
  rw [splitBefore, List.span_eq_takeWhile_dropWhile] at behind
  dsimp only at behind
  rw [behind] at first
  simpa using first

section Inserting

variable {extents : ExtentList} (ordered : Ordered extents)
include ordered

/-- Both parts of an ordered list are ordered. -/
theorem Ordered.parts (block : Nat) :
    Ordered (splitBefore extents block).1 ∧ Ordered (splitBefore extents block).2 := by
  have whole := splitBefore_append extents block
  have disjoint := ordered.disjoint
  rw [← whole] at disjoint
  obtain ⟨front, behind, -⟩ := List.pairwise_append.mp disjoint
  constructor
  · refine ⟨front, fun extent member => ordered.nonempty extent ?_⟩
    rw [← whole]
    exact List.mem_append_left _ member
  · refine ⟨behind, fun extent member => ordered.nonempty extent ?_⟩
    rw [← whole]
    exact List.mem_append_right _ member

/-- The extent before the place of a run is the one that reaches furthest of those before it, and
the extent behind is the one that starts first of those behind. So if neither meets the run, no
extent does. -/
theorem Ordered.neighbours_suffice :
    let before := (splitBefore extents logicalStart).1
    let after := (splitBefore extents logicalStart).2
    ((before.getLast?.any fun extent => logicalStart < extent.logicalEnd) ||
        after.head?.any fun extent => extent.logicalStart < logicalStart + blockCount) = false ↔
      (∀ extent ∈ before, extent.logicalEnd ≤ logicalStart) ∧
        ∀ extent ∈ after, logicalStart + blockCount ≤ extent.logicalStart := by
  intro before after
  obtain ⟨front, behind⟩ := ordered.parts logicalStart
  rw [Bool.or_eq_false_iff]
  refine and_congr ?_ ?_
  · rcases List.eq_nil_or_concat' before with noneBefore | ⟨earlier, last, split⟩
    · simp [noneBefore]
    · have reaches (extent : Extent) (member : extent ∈ before) :
          extent.logicalEnd ≤ last.logicalEnd := by
        have furthest := front.le_mappedBlocks member
        change _ ≤ mappedBlocks before at furthest
        simpa [split, mappedBlocks] using furthest
      simp only [split, List.getLast?_concat, Option.any_some, decide_eq_false_iff_not, Nat.not_lt]
      rw [← split]
      constructor
      · exact fun ends extent member => Nat.le_trans (reaches extent member) ends
      · exact fun ends => ends last (by simp [split])
  · cases split : after with
    | nil => simp
    | cons head later =>
      change Ordered after at behind
      rw [split] at behind
      simp only [List.head?_cons, Option.any_some, decide_eq_false_iff_not, Nat.not_lt]
      constructor
      · exact fun starts extent member => Nat.le_trans starts (behind.head_le member)
      · exact fun starts => starts head List.mem_cons_self

/-- So the neighbours decide whether a run is apart from all extents. An extent that starts before
the run cannot start behind it, and one that starts behind where the run does, not being empty,
cannot end before it. -/
theorem Ordered.apart_iff :
    (∀ extent ∈ extents, extent.Apart logicalStart blockCount) ↔
      (∀ extent ∈ (splitBefore extents logicalStart).1, extent.logicalEnd ≤ logicalStart) ∧
        ∀ extent ∈ (splitBefore extents logicalStart).2,
          logicalStart + blockCount ≤ extent.logicalStart := by
  have whole := splitBefore_append extents logicalStart
  have behind (extent : Extent) (member : extent ∈ (splitBefore extents logicalStart).2) :
      logicalStart < extent.logicalEnd := by
    obtain ⟨-, back⟩ := ordered.parts logicalStart
    cases split : (splitBefore extents logicalStart).2 with
    | nil => simp [split] at member
    | cons head later =>
      have first := le_of_head_behind split
      have positive := back.nonempty extent member
      rw [split] at member back
      have starts := back.head_le member
      unfold Extent.logicalEnd
      omega
  constructor
  · intro apart
    constructor
    · intro extent member
      have starts := lt_of_mem_before member
      rcases apart extent (whole ▸ List.mem_append_left _ member) with ends | starts'
      · exact ends
      · omega
    · intro extent member
      have ends := behind extent member
      rcases apart extent (whole ▸ List.mem_append_right _ member) with ends' | starts
      · omega
      · exact starts
  · rintro ⟨ends, starts⟩ extent member
    rw [← whole] at member
    rcases List.mem_append.mp member with isBefore | isBehind
    · exact .inl (ends extent isBefore)
    · exact .inr (starts extent isBehind)

variable (startBlock)

/-- An insertion puts a run that is apart from all extents between the two parts of the list, and
refuses any other. -/
theorem Ordered.insert_eq (positive : 0 < blockCount) :
    insert extents logicalStart startBlock blockCount =
      if ∀ extent ∈ extents, extent.Apart logicalStart blockCount then
        .ok ((splitBefore extents logicalStart).1 ++
          ⟨logicalStart, startBlock, blockCount⟩ :: (splitBefore extents logicalStart).2)
      else .error (.invalid (.extentOverlap logicalStart blockCount)) := by
  unfold insert
  rw [if_neg (Nat.ne_of_gt positive)]
  dsimp only
  by_cases apart : ∀ extent ∈ extents, extent.Apart logicalStart blockCount
  · rw [if_pos apart]
    have suffices_ := ordered.neighbours_suffice.mpr (ordered.apart_iff.mp apart)
    rw [suffices_]
    exact if_neg Bool.false_ne_true
  · rw [if_neg apart]
    refine if_pos ?_
    by_contra unmet
    exact apart (ordered.apart_iff.mpr (ordered.neighbours_suffice.mp (Bool.not_eq_true _ ▸ unmet)))

/-- A run is inserted exactly if it is empty or none of its blocks is mapped. -/
theorem Ordered.insert_isOk_iff :
    (∃ extended, insert extents logicalStart startBlock blockCount = .ok extended) ↔
      blockCount = 0 ∨ ∀ block, logicalStart ≤ block → block < logicalStart + blockCount →
        lookup extents block = none := by
  by_cases nothing : blockCount = 0
  · simp [insert, nothing]
  · have positive := Nat.pos_of_ne_zero nothing
    have free : (∀ extent ∈ extents, extent.Apart logicalStart blockCount) ↔
        ∀ block, logicalStart ≤ block → block < logicalStart + blockCount →
          lookup extents block = none := by
      simp only [ordered.lookup_eq_none]
      constructor
      · intro apart block from_ inside extent member
        exact (Extent.apart_iff (ordered.nonempty extent member) positive).mp
          (apart extent member) block from_ inside
      · intro free extent member
        refine (Extent.apart_iff (ordered.nonempty extent member) positive).mpr ?_
        exact fun block from_ inside => free block from_ inside extent member
    rw [ordered.insert_eq startBlock positive, ← free]
    by_cases apart : ∀ extent ∈ extents, extent.Apart logicalStart blockCount
    · rw [if_pos apart]
      exact iff_of_true ⟨_, rfl⟩ (.inr apart)
    · rw [if_neg apart]
      simp only [reduceCtorEq, exists_false, nothing, apart, or_self]

/-- What refuses a run says which one. -/
theorem Ordered.insert_error {cause : Error}
    (refused : insert extents logicalStart startBlock blockCount = .error cause) :
    cause = .invalid (.extentOverlap logicalStart blockCount) := by
  by_cases nothing : blockCount = 0
  · simp [insert, nothing] at refused
  · rw [ordered.insert_eq startBlock (Nat.pos_of_ne_zero nothing)] at refused
    split at refused
    · cases refused
    · exact (Except.error.inj refused).symm

variable {startBlock} {extended : ExtentList}
variable (inserted : insert extents logicalStart startBlock blockCount = .ok extended)
include inserted

/-- An insertion keeps the order, and brings in the run alone. -/
theorem Ordered.insert_members (positive : 0 < blockCount) :
    Ordered extended ∧ ∀ extent, extent ∈ extended ↔
      extent = ⟨logicalStart, startBlock, blockCount⟩ ∨ extent ∈ extents := by
  rw [ordered.insert_eq startBlock positive] at inserted
  split at inserted
  next apart =>
    obtain ⟨rfl⟩ := inserted
    obtain ⟨front, behind⟩ := ordered.parts logicalStart
    obtain ⟨ends, starts⟩ := ordered.apart_iff.mp apart
    refine ⟨ordered_around.mpr ⟨front, positive, behind, ends, starts⟩, fun extent => ?_⟩
    have whole := splitBefore_append extents logicalStart
    generalize splitBefore extents logicalStart = parts at whole ⊢
    rw [← whole]
    simp only [List.mem_append, List.mem_cons]
    exact or_left_comm
  · cases inserted

/-- An insertion keeps the order, also of an empty run. -/
theorem Ordered.after_insert : Ordered extended := by
  by_cases nothing : blockCount = 0
  · simp only [insert, nothing, ↓reduceIte, Except.ok.injEq] at inserted
    exact inserted ▸ ordered
  · exact (ordered.insert_members inserted (Nat.pos_of_ne_zero nothing)).1

/-- Inserting a run maps its blocks, and leaves the others as they are. -/
theorem Ordered.lookup_insert (block : Nat) :
    lookup extended block =
      if logicalStart ≤ block ∧ block < logicalStart + blockCount then
        some (startBlock + (block - logicalStart), logicalStart + blockCount - block)
      else lookup extents block := by
  by_cases nothing : blockCount = 0
  · simp only [insert, nothing, ↓reduceIte, Except.ok.injEq] at inserted
    rw [if_neg (by omega), inserted]
  · obtain ⟨grown, members⟩ := ordered.insert_members inserted (Nat.pos_of_ne_zero nothing)
    rw [ordered.lookup_extended grown members]
    simp only [Extent.contains_iff]
    rfl

end Inserting

/-- What may be done to a list of extents. -/
inductive Placement where
  | add (startBlock blockCount : Nat)
  | insert (logicalStart startBlock blockCount : Nat)

/-- Do it. A run that is refused leaves the list as it is. -/
def placed (extents : ExtentList) : Placement → ExtentList
  | .add startBlock blockCount => (push extents startBlock blockCount).2
  | .insert logicalStart startBlock blockCount =>
    match insert extents logicalStart startBlock blockCount with
    | .ok extended => extended
    | .error _ => extents

/-- The extents after several placements, from none on. -/
def afterPlacements (placements : List Placement) : ExtentList := placements.foldl placed []

/-- One placement more is done to what the others leave. -/
theorem afterPlacements_concat (placements : List Placement) (placement : Placement) :
    afterPlacements (placements ++ [placement]) = placed (afterPlacements placements) placement := by
  simp [afterPlacements]

/-- Every placement keeps the order. -/
theorem Ordered.after_placement {extents : ExtentList} (ordered : Ordered extents)
    (placement : Placement) : Ordered (placed extents placement) := by
  cases placement with
  | add startBlock blockCount => exact ordered.after_add startBlock blockCount
  | insert logicalStart startBlock blockCount =>
    cases inserted : insert extents logicalStart startBlock blockCount with
    | ok extended =>
      rw [placed, inserted]
      exact ordered.after_insert inserted
    | error cause =>
      rw [placed, inserted]
      exact ordered

/-- So do several, one after the other. -/
theorem Ordered.after_placements {extents : ExtentList} (ordered : Ordered extents)
    (placements : List Placement) : Ordered (placements.foldl placed extents) := by
  induction placements generalizing extents with
  | nil => exact ordered
  | cons placement later inductionHypothesis =>
    exact inductionHypothesis (ordered.after_placement placement)

/-- The sums that a machine takes to place a run fit into its words. -/
def Placement.Fits (extents : ExtentList) : Placement → Prop
  | .add startBlock blockCount =>
    mappedBlocks extents + blockCount < UInt64.size ∧ startBlock + blockCount < UInt64.size
  | .insert logicalStart startBlock blockCount =>
    logicalStart + blockCount < UInt64.size ∧ startBlock + blockCount < UInt64.size

/-- So do the sums of several placements, each on what the ones before it leave. -/
def Fit : ExtentList → List Placement → Prop
  | _, [] => True
  | extents, placement :: later => placement.Fits extents ∧ Fit (placed extents placement) later

/-- The ends of all extents fit into the words of a machine, both those in the fork and those on the
volume. -/
def InWords (extents : ExtentList) : Prop :=
  ∀ extent ∈ extents,
    extent.logicalEnd < UInt64.size ∧ extent.startBlock + extent.blockCount < UInt64.size

/-- A placement whose sums fit leaves extents whose ends fit. -/
theorem InWords.after_placement {extents : ExtentList} (ordered : Ordered extents)
    (words : InWords extents) {placement : Placement} (fits : placement.Fits extents) :
    InWords (placed extents placement) := by
  cases placement with
  | add startBlock blockCount =>
    intro extent member
    by_cases nothing : blockCount = 0
    · simp only [placed, push, add, nothing, ↓reduceIte] at member
      exact words extent member
    · simp only [placed, push, add, nothing, ↓reduceIte, List.mem_append, List.mem_singleton] at member
      rcases member with old | rfl
      · exact words extent old
      · exact fits
  | insert logicalStart startBlock blockCount =>
    cases inserted : insert extents logicalStart startBlock blockCount with
    | ok extended =>
      rw [placed, inserted]
      intro extent member
      by_cases nothing : blockCount = 0
      · simp only [insert, nothing, ↓reduceIte, Except.ok.injEq] at inserted
        exact words extent (inserted ▸ member)
      · have positive := Nat.pos_of_ne_zero nothing
        obtain rfl | old := ((ordered.insert_members inserted positive).2 extent).mp member
        · exact fits
        · exact words extent old
    | error cause =>
      rw [placed, inserted]
      exact words

/-- So do several placements. -/
theorem InWords.after_placements {extents : ExtentList} (ordered : Ordered extents)
    (words : InWords extents) {placements : List Placement} (fit : Fit extents placements) :
    InWords (placements.foldl placed extents) := by
  induction placements generalizing extents with
  | nil => exact words
  | cons placement later inductionHypothesis =>
    obtain ⟨fits, fitLater⟩ := fit
    exact inductionHypothesis (ordered.after_placement placement)
      (words.after_placement ordered fits) fitLater

/-- What is found in extents whose ends fit lies, with all that is left of its extent, on blocks
whose numbers fit. -/
theorem InWords.lookup {extents : ExtentList} (words : InWords extents)
    {block physical available : Nat}
    (found : lookup extents block = some (physical, available)) :
    physical + available < UInt64.size := by
  obtain ⟨extent, member, inside, same⟩ := exists_of_lookup found
  obtain ⟨rfl, rfl⟩ := Prod.mk.inj same
  have bounds := (extent.contains_iff block).mp inside
  have ends := (words extent member).2
  unfold Extent.logicalEnd
  omega

/-- **A list of extents is a partial map.** Whatever was placed in it, its extents are not empty
and each ends before those behind it start. A block is found where the one extent that holds it
puts it, with what is left of that extent, and is not found if none holds it. Adding a run maps its
blocks behind all that are mapped; adding an empty one is reported and changes nothing. A run is
inserted exactly if it is empty or none of its blocks is mapped, and then maps its blocks and no
others; one that is refused changes nothing. The list is contiguous exactly if it maps the blocks
below its end and no others. As long as the sums taken for the placements fit into words of 64 bits,
so do the ends of all extents, and of all that is found. -/
theorem placements_exact (placements : List Placement) :
    let extents := afterPlacements placements
    Ordered extents ∧
      (∀ block extent, extent ∈ extents → extent.contains block = true →
        lookup extents block = some (extent.place block) ∧
          ∀ other ∈ extents, other.contains block = true → other = extent) ∧
      (∀ block, lookup extents block = none ↔
        ∀ extent ∈ extents, ¬ extent.contains block = true) ∧
      (∀ startBlock, push extents startBlock 0 = (false, extents)) ∧
      (∀ startBlock blockCount, 0 < blockCount →
        (push extents startBlock blockCount).1 = true ∧
          ∀ block, lookup (push extents startBlock blockCount).2 block =
            if mappedBlocks extents ≤ block ∧ block < mappedBlocks extents + blockCount then
              some (startBlock + (block - mappedBlocks extents),
                mappedBlocks extents + blockCount - block)
            else lookup extents block) ∧
      (∀ logicalStart startBlock blockCount,
        (∃ extended, insert extents logicalStart startBlock blockCount = .ok extended) ↔
          blockCount = 0 ∨ ∀ block, logicalStart ≤ block → block < logicalStart + blockCount →
            lookup extents block = none) ∧
      (∀ logicalStart startBlock blockCount extended,
        insert extents logicalStart startBlock blockCount = .ok extended →
          (blockCount = 0 → extended = extents) ∧
            ∀ block, lookup extended block =
              if logicalStart ≤ block ∧ block < logicalStart + blockCount then
                some (startBlock + (block - logicalStart), logicalStart + blockCount - block)
              else lookup extents block) ∧
      (∀ logicalStart startBlock blockCount cause,
        insert extents logicalStart startBlock blockCount = .error cause →
          cause = .invalid (.extentOverlap logicalStart blockCount) ∧
            afterPlacements (placements ++ [.insert logicalStart startBlock blockCount]) =
              extents) ∧
      (isContiguous extents = true ↔
        ∀ block, lookup extents block ≠ none ↔ block < mappedBlocks extents) ∧
      (Fit [] placements → InWords extents ∧ ∀ block physical available,
        lookup extents block = some (physical, available) →
          physical + available < UInt64.size) := by
  intro extents
  have ordered : Ordered extents := ordered_nil.after_placements placements
  refine ⟨ordered, ?_, fun block => ordered.lookup_eq_none, fun startBlock => rfl, ?_, ?_, ?_, ?_,
    ordered.isContiguous_iff, ?_⟩
  · intro block extent member inside
    constructor
    · exact ordered.lookup_of_mem member inside
    · exact fun other otherMember holds => ordered.unique member inside otherMember holds
  · intro startBlock blockCount positive
    constructor
    · exact bne_iff_ne.mpr (Nat.ne_of_gt positive)
    · exact ordered.lookup_add startBlock positive
  · exact fun logicalStart startBlock blockCount => ordered.insert_isOk_iff startBlock
  · intro logicalStart startBlock blockCount extended inserted
    constructor
    · rintro rfl
      exact (Except.ok.inj inserted).symm
    · exact ordered.lookup_insert inserted
  · intro logicalStart startBlock blockCount cause refused
    refine ⟨ordered.insert_error startBlock refused, ?_⟩
    rw [afterPlacements_concat]
    change placed extents _ = extents
    rw [placed, refused]
  · intro fit
    have words : InWords extents := InWords.after_placements ordered_nil (by simp [InWords]) fit
    exact ⟨words, fun block physical available => words.lookup⟩

/-- A list that was filled out of order: the run that fits the gap is taken, and makes the list
contiguous; one that would overlap the first extent is refused. -/
example :
    let extents := afterPlacements [.insert 20 2000 10, .insert 0 1000 10, .insert 10 3000 10]
    isContiguous extents = true ∧ lookup extents 15 = some (3005, 5) ∧
      insert extents 5 7000 2 = .error (.invalid (.extentOverlap 5 2)) := by decide

end HfsPlus.ExtentList
