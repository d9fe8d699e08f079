import HfsPlus.Proofs.FileSystem.Mounting
import HfsPlus.Proofs.FileSystem.Rankings

/-!
# Sums in words

The counts of a summary and the sizes that it ranks files by are words of 64 bits, and so are the
sizes of forks on disk, which nothing checks before they are added up. `AddsUp` says that every sum
is exact while some records are counted. It is so exactly if the sizes of all forks of a kind, their
blocks, and the two sizes of each file add up to numbers that a word holds. Otherwise one of the sums
overflows, and there is no summary. What is counted else always adds up, as there are not that many
records.
-/

namespace HfsPlus

open Catalog (Reading)

namespace Catalog.Reading

variable {overflow : OverflowSource Id} {seen readings : List Reading}

/-- Some of the records from the first on add no more to a count than all of them. -/
theorem total_beginning_le (first : seen <+: readings) (counter : Counter) :
    total overflow seen counter ≤ total overflow readings counter := by
  obtain ⟨later, rfl⟩ := first
  simp [total]

/-- So if all their sizes fit, these do. -/
theorem Fit.of_beginning (fit : Fit overflow readings) (first : seen <+: readings) :
    Fit overflow seen where
  forks kind :=
    ⟨Nat.lt_of_le_of_lt (total_beginning_le first _) (fit.forks kind).1,
      Nat.lt_of_le_of_lt (total_beginning_le first _) (fit.forks kind).2⟩
  files entry member := fit.files entry ((first.filterMap file?).subset member)

end Catalog.Reading

namespace FileSystem

variable (system : FileSystem) (extents : Tree ExtentKey ExtentRecord)

/-- Every sum is exact while some records are counted. -/
structure AddsUp (readings : List Reading) : Prop where
  /-- After each of the records, every count is the sum of what the records so far add to it. -/
  counts : ∀ seen, seen <+: readings → ∃ summary, system.counted extents seen = .ok summary ∧
    ∀ counter, (summary.count counter).toNat =
      Reading.total (extents.direct (m := Id)).overflowSource seen counter
  /-- The size that a file is ranked by is that of both its forks. -/
  sizes : ∀ entry ∈ Reading.files readings, entry.ranked.size.toNat = entry.size

/-- What is counted without an overflow is exact. -/
theorem count_counted {seen : List Reading} {summary : VolumeSummary}
    (counted : system.counted extents seen = .ok summary) (counter : Counter) :
    (summary.count counter).toNat =
      Reading.total (extents.direct (m := Id)).overflowSource seen counter := by
  have counts := system.counts_counted extents seen
  rw [counted] at counts
  cases counts with
  | counted gains => rw [gains.count, VolumeSummary.count_empty, UInt64.toNat_zero, Nat.zero_add]

/-- Everything adds up exactly if the sizes do. -/
theorem addsUp_iff {readings : List Reading} (few : readings.length ≤ 2 ^ 48) :
    system.AddsUp extents readings ↔
      Reading.Fit (extents.direct (m := Id)).overflowSource readings := by
  constructor
  · intro addsUp
    obtain ⟨summary, counted, -⟩ := addsUp.counts readings List.prefix_rfl
    exact (system.exists_counted_iff extents few).mp ⟨summary, counted⟩
  · intro fit
    refine ⟨fun seen first => ?_, fun entry member => NamedFile.size_ranked (fit.files entry member)⟩
    obtain ⟨summary, counted⟩ :=
      (system.exists_counted_iff extents (Nat.le_trans first.length_le few)).mpr
        (fit.of_beginning first)
    exact ⟨summary, counted, system.count_counted extents counted⟩

/-- **Sums in words.** For every file system, asking for a summary is answered: with the cause why
one of the two trees does not open, with a summary of the leaves that are surveyed, or with an
overflow. As long as it is counted no sum is anything but exact. All sums are exact exactly if the
sizes of the forks of each kind, their blocks, and the two sizes of each file add up to less than
`2 ^ 64`; and if the steps of the pass can be counted as well, this is where there is a summary. It
counts all records, and ranks nothing but files by their exact sizes. Everywhere else the answer is
an overflow. -/
theorem sums_exact (system : FileSystem) :
    match system.catalogTree, system.extentsTree with
    | .error cause, _ | .ok _, .error cause => system.Summarizes (.error cause)
    | .ok catalog, .ok extents =>
      ∃ leaves fault, Surveyed catalog leaves fault ∧
        let readings := catalog.readingsIn leaves
        let total := Reading.total (extents.direct (m := Id)).overflowSource readings
        let fit := Reading.Fit (extents.direct (m := Id)).overflowSource readings
        (∀ seen, seen <+: readings → ∀ summary, system.counted extents seen = .ok summary →
          ∀ counter, (summary.count counter).toNat =
            Reading.total (extents.direct (m := Id)).overflowSource seen counter) ∧
        (system.AddsUp extents readings ↔ fit) ∧
        (fit ∧ fault ≠ some .overflow → ∃ summary, system.Summarizes (.ok summary) ∧
          (∀ counter, (summary.count counter).toNat = total counter) ∧
          ∀ ranked ∈ summary.largestFiles, ∃ entry ∈ Reading.files readings,
            entry.ranked = ranked ∧ ranked.size.toNat = entry.size) ∧
        (¬ (fit ∧ fault ≠ some .overflow) → system.Summarizes (.error .overflow)) := by
  cases catalogOpened : system.catalogTree with
  | error cause => exact summarizes_refused (.inl catalogOpened)
  | ok catalog =>
    cases extentsOpened : system.extentsTree with
    | error cause => exact summarizes_refused (.inr ⟨catalog, catalogOpened, extentsOpened⟩)
    | ok extents =>
      obtain ⟨leaves, fault, surveyed, summarizes⟩ := exists_surveyed catalogOpened extentsOpened
      have few := surveyed.length_readingsIn_le
      refine ⟨leaves, fault, surveyed,
        fun seen _ summary counted => system.count_counted extents counted,
        system.addsUp_iff extents few, fun ⟨fit, stepwise⟩ => ?_, fun excess => ?_⟩
      · obtain ⟨summary, concluded⟩ := system.concluded_of_fit extents few fit stepwise
        obtain ⟨gained, gains, rfl⟩ := system.gains_of_concluded extents concluded
        refine ⟨_, concluded ▸ summarizes, fun counter => ?_, fun ranked member => ?_⟩
        · rw [VolumeSummary.count_ended, gains.count, VolumeSummary.count_empty,
            UInt64.toNat_zero, Nat.zero_add]
        · rw [gains.largestFiles_ended] at member
          obtain ⟨entry, selected, rfl⟩ := List.mem_map.mp member
          have counted := Ranking.mem_of_mem_selection selected
          exact ⟨entry, counted, rfl, NamedFile.size_ranked (fit.files entry counted)⟩
      · exact system.concluded_of_not_fit extents few excess ▸ summarizes

section Oversized

/-! A volume with a file whose two forks are of `2 ^ 63` bytes each, by their own account. -/

/-- The file. Nothing is given to its forks. -/
def oversizedFile : CatalogFile :=
  { sampleFile 16 with
    dataFork := sampleFork 0x8000000000000000 0 0
    resourceFork := sampleFork 0x8000000000000000 0 0 }

/-- The bytes of the volume. -/
def oversizedBytes : Bytes :=
  sevenBlocks (sampleHeader 512 1)
    (Tree.nodeBytes 512 0 255 1 [recordBytes ⟨2, .ofText "a"⟩ (.file oversizedFile)])

/-- The volume. -/
def oversized : Volume := .ofImage ⟨oversizedBytes.toArray⟩

/-- The file system on it. -/
def oversizedSystem : FileSystem := .onImage oversizedBytes sevenHeader

/-- It is mounted. -/
theorem oversized_mounted : ∃ mount, (oversized.mount : ExceptT Error Id Mount).run = .ok mount ∧
    mount.volume = oversized ∧ mount.system = oversizedSystem :=
  Volume.mount_ofImage (by decide +kernel) (by decide +kernel) (by decide +kernel)
    (by decide +kernel)

/-- Both trees open, and the leaf has the one file. -/
theorem oversized_opened : ∃ catalog ∈ oversizedSystem.catalogTree.toOption,
    ∃ extents ∈ oversizedSystem.extentsTree.toOption, ∃ leaf ∈ (catalog.parsed 1).toOption,
      catalog.header = sampleHeader 512 1 ∧ leaf.kind = .leaf ∧ leaf.forwardLink = 0 ∧
        (Reading.files (catalog.readingsIn [leaf])).map NamedFile.size = [2 ^ 64] := by
  decide +kernel

/-- On a volume that can be mounted the two sizes of a file are `2 ^ 64` together. No word holds this
sum, and asking for a summary ends in an overflow. -/
theorem sums_overflow : ∃ mount : Mount,
    (oversized.mount : ExceptT Error Id Mount).run = .ok mount ∧
    ∃ catalog extents leaf,
      mount.system.catalogTree = .ok catalog ∧ mount.system.extentsTree = .ok extents ∧
        Surveyed catalog [leaf] none ∧
        (Reading.files (catalog.readingsIn [leaf])).map NamedFile.size = [2 ^ 64] ∧
        mount.system.Summarizes (.error .overflow) := by
  obtain ⟨mount, mounted, -, system⟩ := oversized_mounted
  obtain ⟨catalog, catalogOpened, extents, extentsOpened, leaf, parsed, opened⟩ := oversized_opened
  obtain ⟨header, kind, last, sizes⟩ := opened
  rw [mem_toOption] at catalogOpened extentsOpened parsed
  have surveyed : Surveyed catalog [leaf] none :=
    .single (by rw [Tree.isEmpty, header]; decide) (by rw [header]; decide)
      (by rw [header]; exact parsed) kind last
  rw [← system] at catalogOpened extentsOpened
  obtain ⟨leaves, fault, also, summarizes⟩ := exists_surveyed catalogOpened extentsOpened
  obtain ⟨rfl, rfl⟩ := also.unique surveyed
  have unfit : ¬ Reading.Fit (extents.direct (m := Id)).overflowSource
      (catalog.readingsIn [leaf]) := by
    intro fit
    obtain ⟨entry, member, size⟩ :=
      List.mem_map.mp (sizes ▸ List.mem_singleton_self (2 ^ 64) : 2 ^ 64 ∈ _)
    exact absurd (fit.files entry member) (by omega)
  have excess : concluded (mount.system.counted extents (catalog.readingsIn [leaf])) none =
      .error .overflow :=
    mount.system.concluded_of_not_fit extents surveyed.length_readingsIn_le fun both => unfit both.1
  exact ⟨mount, mounted, catalog, extents, leaf, catalogOpened, extentsOpened, surveyed, sizes,
    excess ▸ summarizes⟩

end Oversized

end FileSystem

end HfsPlus
