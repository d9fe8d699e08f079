import HfsPlus.Fork
import Mathlib.Data.List.TakeWhile
import Mathlib.Logic.ExistsUnique

/-!
# Runs laid one after the other

The extents of a fork are its runs, each laid where the one before it ends. `placeIn` says
where a block lies by walking through the runs, without any logical positions; `laid` gives
the runs their positions. A look-up in laid extents finds what the walk finds, the blocks
that are mapped are those below the number of blocks in the runs, and each of them lies in
exactly one extent. Adding a record lays its runs behind those that are there.
-/

namespace HfsPlus

/-- How many blocks some runs map. -/
def blocksIn : List ExtentDescriptor → Nat
  | [] => 0
  | run :: later => run.blockCount.toNat + blocksIn later

/-- Where a block lies that is counted through some runs, and how many blocks are left of
its run from there on. -/
def placeIn : List ExtentDescriptor → Nat → Option (Nat × Nat)
  | [], _ => none
  | run :: later, block =>
    if block < run.blockCount.toNat then
      some (run.startBlock.toNat + block, run.blockCount.toNat - block)
    else placeIn later (block - run.blockCount.toNat)

/-- No runs map no blocks. -/
@[simp] theorem blocksIn_nil : blocksIn [] = 0 := rfl

/-- A run maps its blocks, and the later ones theirs. -/
@[simp] theorem blocksIn_cons (run : ExtentDescriptor) (later : List ExtentDescriptor) :
    blocksIn (run :: later) = run.blockCount.toNat + blocksIn later := rfl

/-- Runs behind others map their blocks in addition. -/
@[simp] theorem blocksIn_append (runs later : List ExtentDescriptor) :
    blocksIn (runs ++ later) = blocksIn runs + blocksIn later := by
  induction runs with
  | nil => simp
  | cons run rest inductionHypothesis => simp [inductionHypothesis, Nat.add_assoc]

/-- Runs in use map at least a block each. -/
theorem length_le_blocksIn {runs : List ExtentDescriptor}
    (used : ∀ run ∈ runs, run.blockCount ≠ 0) : runs.length ≤ blocksIn runs := by
  induction runs with
  | nil => exact Nat.le_refl 0
  | cons run later inductionHypothesis =>
    have laterUsed : later.length ≤ blocksIn later :=
      inductionHypothesis fun other member => used other (List.mem_cons_of_mem run member)
    have positive : run.blockCount.toNat ≠ 0 := by
      intro none_
      exact used run List.mem_cons_self (UInt32.toNat_inj.mp none_)
    simp only [List.length_cons, blocksIn_cons]
    omega

/-- Every run in use of a record maps a block. -/
theorem ExtentRecord.used_positive (record : ExtentRecord) :
    ∀ run ∈ record.used, run.blockCount ≠ 0 := by
  intro run member
  simpa using List.mem_takeWhile_imp member

/-- No more than the eight runs of a record are in use. -/
theorem ExtentRecord.length_used_le (record : ExtentRecord) : record.used.length ≤ 8 := by
  have taken := (List.takeWhile_prefix (fun run : ExtentDescriptor => run.blockCount ≠ 0)
    (l := record.toList)).length_le
  rwa [Vector.length_toList] at taken

/-- A record with runs in use maps a block. -/
theorem ExtentRecord.blocksIn_used_pos {record : ExtentRecord} (used : record.used ≠ []) :
    0 < blocksIn record.used := by
  have runs : 0 < record.used.length := List.length_pos_iff.mpr used
  have blocks := length_le_blocksIn record.used_positive
  omega

/-- The blocks that have a place are those below the number of blocks in the runs. -/
theorem placeIn_isSome (runs : List ExtentDescriptor) (block : Nat) :
    (placeIn runs block).isSome = true ↔ block < blocksIn runs := by
  induction runs generalizing block with
  | nil => simp [placeIn]
  | cons run later inductionHypothesis =>
    by_cases inside : block < run.blockCount.toNat
    · simp only [placeIn, inside, ↓reduceIte, Option.isSome_some, blocksIn_cons, true_iff]
      omega
    · simp only [placeIn, inside, ↓reduceIte, inductionHypothesis, blocksIn_cons]
      omega

/-- A block without a place lies behind all runs. -/
theorem placeIn_eq_none (runs : List ExtentDescriptor) (block : Nat) :
    placeIn runs block = none ↔ blocksIn runs ≤ block := by
  have placed := placeIn_isSome runs block
  cases found : placeIn runs block with
  | none =>
    simp only [found, Option.isSome_none, Bool.false_eq_true, false_iff] at placed
    simpa using placed
  | some place =>
    simp only [found, Option.isSome_some, true_iff] at placed
    simpa using placed

/-- Runs that follow change no place that a block has. -/
theorem placeIn_append {runs : List ExtentDescriptor} {block : Nat} {place : Nat × Nat}
    (placed : placeIn runs block = some place) (later : List ExtentDescriptor) :
    placeIn (runs ++ later) block = some place := by
  induction runs generalizing block with
  | nil => simp [placeIn] at placed
  | cons run rest inductionHypothesis =>
    by_cases inside : block < run.blockCount.toNat
    · simpa [placeIn, inside] using placed
    · simp only [placeIn, inside, ↓reduceIte, List.cons_append] at placed ⊢
      exact inductionHypothesis placed

/-- The blocks that are left of a run follow on the volume as they do in the fork. -/
theorem placeIn_add {runs : List ExtentDescriptor} {block physical left ahead : Nat}
    (placed : placeIn runs block = some (physical, left)) (within : ahead < left) :
    placeIn runs (block + ahead) = some (physical + ahead, left - ahead) := by
  induction runs generalizing block with
  | nil => simp [placeIn] at placed
  | cons run later inductionHypothesis =>
    by_cases inside : block < run.blockCount.toNat
    · simp only [placeIn, inside, ↓reduceIte, Option.some.injEq, Prod.mk.injEq] at placed
      obtain ⟨rfl, rfl⟩ := placed
      have alsoInside : block + ahead < run.blockCount.toNat := by omega
      simp only [placeIn, alsoInside, ↓reduceIte, Option.some.injEq, Prod.mk.injEq]
      omega
    · simp only [placeIn, inside, ↓reduceIte] at placed
      have alsoOutside : ¬ block + ahead < run.blockCount.toNat := by omega
      have moved : block + ahead - run.blockCount.toNat =
          block - run.blockCount.toNat + ahead := by omega
      simp only [placeIn, alsoOutside, ↓reduceIte, moved]
      exact inductionHypothesis placed

namespace ExtentList

/-- Runs as extents, each laid where the one before it ends, the first at `start`. -/
def laid : (start : Nat) → List ExtentDescriptor → ExtentList
  | _, [] => []
  | start, run :: later =>
    ⟨start, run.startBlock.toNat, run.blockCount.toNat⟩ :: laid (start + run.blockCount.toNat) later

/-- Runs behind others are laid where those end. -/
theorem laid_append (start : Nat) (runs later : List ExtentDescriptor) :
    laid start (runs ++ later) = laid start runs ++ laid (start + blocksIn runs) later := by
  induction runs generalizing start with
  | nil => simp [laid]
  | cons run rest inductionHypothesis =>
    simp only [List.cons_append, laid, inductionHypothesis, blocksIn_cons, Nat.add_assoc]

/-- No laid extent starts before the first. -/
theorem start_le_of_mem_laid {start : Nat} {runs : List ExtentDescriptor} {extent : Extent}
    (member : extent ∈ laid start runs) : start ≤ extent.logicalStart := by
  induction runs generalizing start with
  | nil => simp [laid] at member
  | cons run later inductionHypothesis =>
    rcases List.mem_cons.mp member with rfl | behind
    · exact Nat.le_refl start
    · have := inductionHypothesis behind
      omega

/-- The mapped blocks of laid extents end where the runs do. -/
theorem mappedBlocks_laid {start : Nat} {runs : List ExtentDescriptor} (some_ : runs ≠ []) :
    mappedBlocks (laid start runs) = start + blocksIn runs := by
  induction runs generalizing start with
  | nil => exact absurd rfl some_
  | cons run later inductionHypothesis =>
    cases later with
    | nil => simp [laid, mappedBlocks, Extent.logicalEnd]
    | cons next rest =>
      have behind : mappedBlocks (laid (start + run.blockCount.toNat) (next :: rest)) =
          start + run.blockCount.toNat + blocksIn (next :: rest) :=
        inductionHypothesis (List.cons_ne_nil next rest)
      have same : mappedBlocks (laid start (run :: next :: rest)) =
          mappedBlocks (laid (start + run.blockCount.toNat) (next :: rest)) := by
        simp [laid, mappedBlocks]
      rw [same, behind, blocksIn_cons run, Nat.add_assoc]

/-- Laid from the first block on, runs map as many blocks as they have. -/
@[simp] theorem mappedBlocks_laid_zero (runs : List ExtentDescriptor) :
    mappedBlocks (laid 0 runs) = blocksIn runs := by
  cases runs with
  | nil => rfl
  | cons run later => rw [mappedBlocks_laid (List.cons_ne_nil run later), Nat.zero_add]

/-- Laid extents leave no gap. -/
theorem contiguousFrom_laid (start : Nat) (runs : List ExtentDescriptor) :
    contiguousFrom start (laid start runs) = true := by
  induction runs generalizing start with
  | nil => rfl
  | cons run later inductionHypothesis =>
    simp [laid, contiguousFrom, Extent.logicalEnd, inductionHypothesis]

/-- A look-up in laid extents finds the place of the block in the runs: as long as the block
is not in the first run, the last extent that starts before it is one of the others. -/
theorem lookup_laid (start : Nat) (runs : List ExtentDescriptor) (block : Nat) :
    lookup (laid start runs) (start + block) = placeIn runs block := by
  induction runs generalizing start block with
  | nil => rfl
  | cons run later inductionHypothesis =>
    by_cases inside : block < run.blockCount.toNat
    · have noneBehind : (laid (start + run.blockCount.toNat) later).takeWhile
          (fun extent => extent.logicalStart ≤ start + block) = [] := by
        refine List.takeWhile_eq_nil_iff.mpr fun some_ => ?_
        have behind := start_le_of_mem_laid (List.get_mem _ ⟨0, some_⟩)
        simp only [decide_eq_true_eq]
        omega
      simp [laid, lookup, noneBehind, placeIn, inside, Extent.contains]
    · have moved : start + run.blockCount.toNat + (block - run.blockCount.toNat) =
          start + block := by omega
      have behind := inductionHypothesis (start + run.blockCount.toNat)
        (block - run.blockCount.toNat)
      rw [moved] at behind
      simp only [placeIn, inside, ↓reduceIte, ← behind]
      cases later with
      | nil => simp [laid, lookup, Extent.contains, inside]
      | cons next rest =>
        have reached : start + run.blockCount.toNat ≤ start + block := by omega
        simp [laid, lookup, reached]

/-- The same for runs laid from the first block on. -/
theorem lookup_laid_zero (runs : List ExtentDescriptor) (block : Nat) :
    lookup (laid 0 runs) block = placeIn runs block := by
  simpa using lookup_laid 0 runs block

/-- Each mapped block lies in exactly one extent. -/
theorem existsUnique_laid {start : Nat} {runs : List ExtentDescriptor} {block : Nat}
    (from_ : start ≤ block) (inside : block < start + blocksIn runs) :
    ∃! place : Nat, ∃ extent : Extent, (laid start runs)[place]? = some extent ∧
      extent.contains block = true := by
  induction runs generalizing start with
  | nil => simp only [blocksIn_nil] at inside; omega
  | cons run later inductionHypothesis =>
    by_cases first : block < start + run.blockCount.toNat
    · refine ⟨0, ⟨_, rfl, (Extent.contains_iff _ _).mpr ⟨from_, first⟩⟩, ?_⟩
      rintro (_ | place) ⟨extent, found, holds⟩
      · rfl
      · have later_ : (laid (start + run.blockCount.toNat) later)[place]? = some extent := found
        have behind := start_le_of_mem_laid (List.mem_of_getElem? later_)
        have holding := (Extent.contains_iff extent block).mp holds
        omega
    · have insideLater : block < start + run.blockCount.toNat + blocksIn later := by
        rw [blocksIn_cons] at inside
        omega
      obtain ⟨place, placed, only⟩ := inductionHypothesis (by omega) insideLater
      refine ⟨place + 1, placed, ?_⟩
      rintro (_ | other) ⟨extent, found, holds⟩
      · obtain ⟨⟩ := found
        have holding := (Extent.contains_iff _ block).mp holds
        exact absurd holding.2 first
      · exact congrArg Nat.succ (only other ⟨extent, found, holds⟩)

/-- Adding a run maps its blocks, whatever is mapped already. -/
theorem mappedBlocks_add (extents : ExtentList) (startBlock blockCount : Nat) :
    mappedBlocks (add extents startBlock blockCount) = mappedBlocks extents + blockCount := by
  by_cases empty : blockCount = 0
  · simp [add, empty]
  · simp [add, empty, mappedBlocks, Extent.logicalEnd]

/-- Adding a record maps the blocks of its runs. -/
theorem mappedBlocks_addRecord (extents : ExtentList) (record : ExtentRecord) :
    mappedBlocks (addRecord extents record) = mappedBlocks extents + blocksIn record.used := by
  have added (runs : List ExtentDescriptor) :
      mappedBlocks (runs.foldl (fun extents run =>
        add extents run.startBlock.toNat run.blockCount.toNat) extents) =
        mappedBlocks extents + blocksIn runs := by
    induction runs generalizing extents with
    | nil => simp
    | cons run later inductionHypothesis =>
      rw [List.foldl_cons, inductionHypothesis, mappedBlocks_add, blocksIn_cons, Nat.add_assoc]
  exact added record.used

/-- A run in use is laid behind the runs that are there. -/
theorem add_laid (runs : List ExtentDescriptor) {run : ExtentDescriptor}
    (used : run.blockCount ≠ 0) :
    add (laid 0 runs) run.startBlock.toNat run.blockCount.toNat = laid 0 (runs ++ [run]) := by
  have positive : run.blockCount.toNat ≠ 0 := by
    intro none_
    exact used (UInt32.toNat_inj.mp none_)
  simp [add, positive, laid_append, laid]

/-- The runs in use of a record are laid behind the runs that are there. -/
theorem addRecord_laid (runs : List ExtentDescriptor) (record : ExtentRecord) :
    addRecord (laid 0 runs) record = laid 0 (runs ++ record.used) := by
  have added (later : List ExtentDescriptor) (used : ∀ run ∈ later, run.blockCount ≠ 0) :
      later.foldl (fun extents run => add extents run.startBlock.toNat run.blockCount.toNat)
        (laid 0 runs) = laid 0 (runs ++ later) := by
    induction later generalizing runs with
    | nil => simp
    | cons run rest inductionHypothesis =>
      rw [List.foldl_cons, add_laid runs (used run List.mem_cons_self),
        inductionHypothesis _ fun other member => used other (List.mem_cons_of_mem run member),
        List.append_assoc, List.singleton_append]
  exact added record.used record.used_positive

end ExtentList

end HfsPlus
