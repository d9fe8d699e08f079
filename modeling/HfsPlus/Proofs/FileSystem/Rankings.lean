import HfsPlus.Proofs.FileSystem.Ranking
import HfsPlus.Proofs.FileSystem.Summary

/-!
# What a summary ranks

Each file that is counted is put into one ranking by the sizes of its forks together, and each of
its forks that is in more than one piece into another, the data fork first. A fork that is empty
or whose extents cannot all be resolved is ranked nowhere. So after all records the rankings of a
summary are the first of all files and of all forks in pieces, in stable order.
-/

namespace HfsPlus

open Catalog (Reading)

namespace VolumeSummary

variable {overflow : OverflowSource Id} {readings : List Reading} {gained : VolumeSummary}
variable (gains : VolumeSummary.empty.Gains (Reading.total overflow readings)
  (Reading.files readings) (Reading.inPieces overflow readings) gained)
include gains

/-- The largest files of a summary are the first of all files that it has counted. -/
theorem Gains.largestFiles_ended (fault : Option Error) : (gained.ended fault).largestFiles =
    (Ranking.selection NamedFile.size (Reading.files readings)).map NamedFile.ranked := by
  have ended : (gained.ended fault).largestFiles = gained.largestFiles := by cases fault <;> rfl
  rw [ended, gains.largestFiles]
  refine (Ranking.foldl_pushRanked _ _).trans ?_
  exact Ranking.selection_map NamedFile.ranked fun entry member =>
    NamedFile.size_ranked (gains.fits entry member)

/-- Its most fragmented forks are the first of all forks in pieces. -/
theorem Gains.mostFragmented_ended (fault : Option Error) : (gained.ended fault).mostFragmented =
    Ranking.selection RankedFork.extents (Reading.inPieces overflow readings) := by
  have ended : (gained.ended fault).mostFragmented = gained.mostFragmented := by
    cases fault <;> rfl
  rw [ended, gains.mostFragmented]
  refine (Ranking.foldl_pushRanked _ _).trans ?_
  refine Ranking.selection_congr fun fork member => UInt64.toNat_ofNat_of_lt' ?_
  obtain ⟨entry, _, among⟩ := List.mem_flatMap.mp member
  exact NamedFile.extents_lt_of_mem among

end VolumeSummary

namespace FileSystem

/-- Two answers to one question are the same. -/
theorem Summarizes.unique {system : FileSystem} {outcome other : Except Error VolumeSummary}
    (first : system.Summarizes outcome) (second : system.Summarizes other) : outcome = other :=
  (first 0 []).symm.trans (second 0 [])

/-- **Rankings.** Items that are put into an empty ranking one after the other leave it with the
first of all of them by descending rank, in the order of arrival among equals. Wherever both trees
of a volume open, and whichever leaves are surveyed then, these are the files that a summary ranks by
the sizes of both their forks, each of which a word holds, and the forks that it ranks by their
extents: those that are not empty, whose extents can all be resolved and are more than one. There is
such a summary as long as nothing that it adds up, and no number of steps, overflows. -/
theorem rankings_exact :
    (∀ {α : Type} (rank : α → UInt64) (items : List α), items.foldl (pushRanked rank) [] =
      Ranking.selection (fun item => (rank item).toNat) items) ∧
    ∀ {system : FileSystem} {catalog : Tree CatalogKey CatalogRecord}
      {extents : Tree ExtentKey ExtentRecord}, system.catalogTree = .ok catalog →
      system.extentsTree = .ok extents →
      ∃ leaves fault, Surveyed catalog leaves fault ∧
        let readings := catalog.readingsIn leaves
        (Reading.Fit (extents.direct (m := Id)).overflowSource readings →
          fault ≠ some .overflow → ∃ summary, system.Summarizes (.ok summary)) ∧
        ∀ summary, system.Summarizes (.ok summary) →
          (∀ entry ∈ Reading.files readings, entry.size < 2 ^ 64) ∧
          summary.largestFiles =
            (Ranking.selection NamedFile.size (Reading.files readings)).map NamedFile.ranked ∧
          summary.mostFragmented = Ranking.selection RankedFork.extents
            (Reading.inPieces (extents.direct (m := Id)).overflowSource readings) := by
  refine ⟨fun rank items => Ranking.foldl_pushRanked rank items, ?_⟩
  intro system catalog extents catalogOpened extentsOpened
  obtain ⟨leaves, fault, surveyed, summarizes⟩ := exists_surveyed catalogOpened extentsOpened
  refine ⟨leaves, fault, surveyed, fun fit stepwise => ?_, fun summary answered => ?_⟩
  · obtain ⟨summary, concluded⟩ :=
      system.concluded_of_fit extents surveyed.length_readingsIn_le fit stepwise
    exact ⟨summary, concluded ▸ summarizes⟩
  · obtain ⟨gained, gains, rfl⟩ :=
      system.gains_of_concluded extents (summarizes.unique answered)
    exact ⟨gains.fits, gains.largestFiles_ended fault, gains.mostFragmented_ended fault⟩

section Sample

/-! A volume with three files. Two of them are of the same size, one of these in two forks, and the
third is larger and in two pieces. -/

/-- The files, behind their keys. -/
def tiedLeaf : List Bytes :=
  [recordBytes ⟨2, .ofText "a"⟩ (.file { sampleFile 16 with dataFork := sampleFork 512 0 1 }),
    recordBytes ⟨2, .ofText "b"⟩ (.file { sampleFile 17 with
      dataFork := { sampleFork 2048 0 1 with
        totalBlocks := 2, extents := (sampleFork 2048 0 1).extents.set 1 ⟨2, 1⟩ } }),
    recordBytes ⟨2, .ofText "c"⟩ (.file { sampleFile 18 with
      dataFork := sampleFork 256 0 1, resourceFork := sampleFork 256 1 1 })]

/-- The volume. -/
def tied : FileSystem :=
  let image := Tree.nodeBytes 512 0 1 0 [Stored.encode (sampleHeader 512 0)] ++
    List.replicate 512 0 ++ Tree.nodeBytes 1024 0 1 0 [Stored.encode (sampleHeader 1024 3)] ++
    Tree.nodeBytes 1024 0 255 1 tiedLeaf
  { sample with
    window := ⟨some 3072, fun offset wanted => .ok ((image.drop offset).take wanted)⟩ }

/-- Both trees open, and the leaf has files of few bytes. -/
theorem tied_opened : ∃ catalog ∈ tied.catalogTree.toOption,
    ∃ extents ∈ tied.extentsTree.toOption, ∃ leaf ∈ (catalog.parsed 1).toOption,
      let readings := catalog.readingsIn [leaf]
      let total := Reading.total (extents.direct (m := Id)).overflowSource readings
      catalog.header = sampleHeader 1024 3 ∧ leaf.kind = .leaf ∧ leaf.forwardLink = 0 ∧
        (∀ kind ∈ [ForkKind.data, .resource], total (.ofForks kind .logicalBytes) ≤ 4096 ∧
          total (.ofForks kind .allocatedBlocks) ≤ 4) ∧
        ∀ entry ∈ Reading.files readings, entry.size ≤ 2048 := by
  decide +kernel

/-- Its summary ranks the larger file first, and the others in the order of the leaf. -/
theorem tied_summarizes : ∃ summary ∈ (tied.direct (m := Id)).summary.run.toOption,
    summary.largestFiles =
        [⟨17, .ofText "b", 2048⟩, ⟨16, .ofText "a", 512⟩, ⟨18, .ofText "c", 512⟩] ∧
      summary.mostFragmented = [⟨17, .ofText "b", .data, 2⟩] := by decide +kernel

/-- The selections of the files and forks come to these rankings. -/
theorem rankings_exact_sample : ∃ catalog extents leaf summary,
    tied.catalogTree = .ok catalog ∧ tied.extentsTree = .ok extents ∧
      Surveyed catalog [leaf] none ∧ tied.Summarizes (.ok summary) ∧
      let readings := catalog.readingsIn [leaf]
      (∀ entry ∈ Reading.files readings, entry.size < 2 ^ 64) ∧
        (Ranking.selection NamedFile.size (Reading.files readings)).map NamedFile.ranked =
          [⟨17, .ofText "b", 2048⟩, ⟨16, .ofText "a", 512⟩, ⟨18, .ofText "c", 512⟩] ∧
        Ranking.selection RankedFork.extents
            (Reading.inPieces (extents.direct (m := Id)).overflowSource readings) =
          [⟨17, .ofText "b", .data, 2⟩] := by
  obtain ⟨catalog, catalogOpened, extents, extentsOpened, leaf, parsed, opened⟩ := tied_opened
  obtain ⟨header, kind, last, few, small⟩ := opened
  rw [mem_toOption] at catalogOpened extentsOpened parsed
  have single : Surveyed catalog [leaf] none :=
    .single (by rw [Tree.isEmpty, header]; decide) (by rw [header]; decide)
      (by rw [header]; exact parsed) kind last
  obtain ⟨leaves, fault, surveyed, answers, ranks⟩ := rankings_exact.2 catalogOpened extentsOpened
  obtain ⟨rfl, rfl⟩ := surveyed.unique single
  have forks : Reading.SizesFit (extents.direct (m := Id)).overflowSource
      (catalog.readingsIn [leaf]) := by
    intro kind
    obtain ⟨bytes, blocks⟩ := few kind (by cases kind <;> decide)
    exact ⟨Nat.lt_of_le_of_lt bytes (by decide), Nat.lt_of_le_of_lt blocks (by decide)⟩
  obtain ⟨summary, summarizes⟩ := answers
    ⟨forks, fun entry member => Nat.lt_of_le_of_lt (small entry member) (by decide)⟩ (by decide)
  obtain ⟨fits, largest, fragmented⟩ := ranks summary summarizes
  obtain ⟨direct, answered, files, pieces⟩ := tied_summarizes
  rw [mem_toOption] at answered
  obtain rfl : summary = direct :=
    Except.ok.inj (summarizes.unique (answered ▸ tied.summarizes_direct))
  exact ⟨catalog, extents, leaf, summary, catalogOpened, extentsOpened, surveyed, summarizes, fits,
    largest.symm.trans files, fragmented.symm.trans pieces⟩

end Sample

end FileSystem

end HfsPlus
