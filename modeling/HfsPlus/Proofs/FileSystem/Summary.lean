import HfsPlus.Proofs.FileSystem.Counting
import HfsPlus.Proofs.FileSystem.Mounting
import HfsPlus.Proofs.FileSystem.Paths
import HfsPlus.Proofs.Tree.Pass

/-!
# A summary is a sum over the leaves

The pass that counts a volume is shown the leaves of the catalog until the chain ends or a fault
ends it, however damaged the catalog may be. Its summary is the sum of what each record of these
leaves adds: no record is lost and none is counted twice, whatever cannot be read or resolved
between them. The summary says whether a fault ended the pass, and of it alone it warns.

There are two ways in which a count can overflow, and then there is no summary. The sizes of the
records may not fit into words; or the leaves come back to one that was met, in a tree that claims
as many nodes as the steps of a pass can be counted.
-/

namespace HfsPlus

open Catalog (Reading)

namespace VolumeSummary

section Counting

variable (overflow : OverflowSource Id) (blockSize : Nat)
variable (catalog : Tree CatalogKey CatalogRecord) (node : Node) (summary : VolumeSummary)

/-- The records of a leaf are counted one after the other. The induction is on those that are
left. -/
theorem addRecords_run (left index : Nat) :
    (addRecords overflow blockSize catalog node left index summary : ExceptT Error Id _).run =
      ((List.range' index left).map (catalog.leafRecord node)).foldlM
        (addReading overflow blockSize) summary := by
  induction left generalizing index summary with
  | zero => rfl
  | succ left inductionHypothesis =>
    rw [List.range'_succ, List.map_cons, List.foldlM_cons, addRecords]
    rcases catalog.leafRecord node index with cause | ⟨key, record⟩
    · simp only [run_bind_direct]
      exact congrArg (Except.bind _) (funext fun summary => inductionHypothesis summary (index + 1))
    · simp only [run_bind_direct]
      exact congrArg (Except.bind _) (funext fun summary => inductionHypothesis summary (index + 1))

/-- A leaf is taken in with all its records. -/
theorem addNode_leaf (leaf : node.kind = .leaf) :
    (addNode overflow blockSize catalog summary node : Id _).run = Tree.takenIn summary
      ((catalog.readings node).foldlM (addReading overflow blockSize) summary) := by
  rw [addNode, if_pos leaf, Id.run_bind, addRecords_run, Tree.readings, List.range_eq_range']
  cases (((List.range' 0 node.count).map (catalog.leafRecord node)).foldlM
    (addReading overflow blockSize) summary : Except Error VolumeSummary) <;> rfl

/-- Any other node is refused. -/
theorem addNode_other (other : node.kind ≠ .leaf) :
    (addNode overflow blockSize catalog summary node : Id _).run =
      (summary, .error (catalog.corrupt node.number (.notLeaf node.kind))) := by
  rw [addNode, if_neg other]
  rfl

end Counting

/-- A summary when the pass has ended, by a fault or without one. -/
def ended (summary : VolumeSummary) : Option Error → VolumeSummary
  | none => summary
  | some cause => { summary with truncated := true, warnings := [cause.message] }

/-- Nothing is counted at first. -/
theorem count_empty (counter : Counter) : VolumeSummary.empty.count counter = 0 := by
  cases counter with
  | ofForks kind counter => cases kind <;> cases counter <;> rfl
  | _ => rfl

/-- A fault changes no count. -/
theorem count_ended (summary : VolumeSummary) (fault : Option Error) (counter : Counter) :
    (summary.ended fault).count counter = summary.count counter := by
  cases fault with
  | none => rfl
  | some cause =>
    cases counter with
    | ofForks kind counter => cases kind <;> rfl
    | _ => rfl

/-- A summary accounts for some leaves of a catalog and for the fault that ended the pass over
them, if there was one. -/
structure AccountsFor (overflow : OverflowSource Id) (catalog : Tree CatalogKey CatalogRecord)
    (leaves : List Node) (fault : Option Error) (summary : VolumeSummary) : Prop where
  /-- Each count is the sum of what the records add to it. -/
  counts : ∀ counter,
    (summary.count counter).toNat = Reading.total overflow (catalog.readingsIn leaves) counter
  /-- Every record that the leaves say they have is a file, a folder, the root folder or a
  thread, or it cannot be read. -/
  records : summary.files.toNat + summary.folders.toNat + summary.threadRecords.toNat +
      (catalog.readingsIn leaves).countP Reading.isRoot +
      (catalog.readingsIn leaves).countP Reading.isDamaged =
    (leaves.map fun leaf => leaf.descriptor.numRecords.toNat).sum
  /-- What is damaged are the records that cannot be read and the forks that cannot be
  resolved. -/
  damaged : summary.damagedRecords.toNat = (catalog.readingsIn leaves).countP Reading.isDamaged +
    ((catalog.readingsIn leaves).map (Reading.unresolvedForks overflow)).sum
  truncated : summary.truncated = fault.isSome
  warnings : summary.warnings = fault.toList.map Error.message

section Accounts

variable {overflow : OverflowSource Id} {catalog : Tree CatalogKey CatalogRecord}
variable {steps current : UInt32} {leaves : List Node} {fault : Option Error}
variable (passes : catalog.Passes steps current leaves fault)
include passes

/-- A pass is shown records that can be counted in a word. -/
theorem length_readingsIn_le : (catalog.readingsIn leaves).length ≤ 2 ^ 48 := by
  have each : (leaves.map fun leaf => leaf.descriptor.numRecords.toNat).sum ≤
      (leaves.map fun leaf => leaf.descriptor.numRecords.toNat).length • 2 ^ 16 := by
    refine List.sum_le_card_nsmul _ _ fun records member => ?_
    obtain ⟨leaf, _, rfl⟩ := List.mem_map.mp member
    exact Nat.le_of_lt leaf.descriptor.numRecords.toNat_lt
  have few := passes.length_le
  have size : UInt32.size = 2 ^ 32 := rfl
  rw [List.length_map, smul_eq_mul] at each
  rw [passes.length_readingsIn]
  omega

/-- A summary that has gained all records that a pass is shown accounts for its leaves. -/
theorem Gains.accountsFor {files : List NamedFile} {forks : List RankedFork}
    {summary : VolumeSummary} (gains : VolumeSummary.empty.Gains
      (Reading.total overflow (catalog.readingsIn leaves)) files forks summary) :
    (summary.ended fault).AccountsFor overflow catalog leaves fault := by
  have counted (counter : Counter) : ((summary.ended fault).count counter).toNat =
      Reading.total overflow (catalog.readingsIn leaves) counter := by
    rw [count_ended, gains.count, count_empty, UInt64.toNat_zero, Nat.zero_add]
  constructor
  case counts => exact counted
  case records =>
    rw [← passes.length_readingsIn, ← Reading.total_kinds overflow (catalog.readingsIn leaves),
      ← counted .files, ← counted .folders, ← counted .threadRecords]
    rfl
  case damaged => exact (counted .damagedRecords).trans (Reading.total_damagedRecords _ _)
  case truncated =>
    cases fault with
    | none => exact gains.truncated
    | some cause => rfl
  case warnings =>
    cases fault with
    | none => exact gains.warnings
    | some cause => rfl

end Accounts

end VolumeSummary

namespace FileSystem

variable {system : FileSystem} {catalog : Tree CatalogKey CatalogRecord}
variable {extents : Tree ExtentKey ExtentRecord}

/-- A summary when it has counted some records, unless a count overflows. -/
def counted (system : FileSystem) (extents : Tree ExtentKey ExtentRecord)
    (readings : List Reading) : Except Error VolumeSummary :=
  readings.foldlM (VolumeSummary.addReading (extents.direct (m := Id)).overflowSource
    system.blockSize) .empty

/-- It has gained what these records add, or it overflowed. -/
theorem counts_counted (system : FileSystem) (extents : Tree ExtentKey ExtentRecord)
    (readings : List Reading) : VolumeSummary.empty.Counts
      (Reading.total (extents.direct (m := Id)).overflowSource readings) (Reading.files readings)
      (Reading.inPieces (extents.direct (m := Id)).overflowSource readings)
      (system.counted extents readings) :=
  VolumeSummary.counts_foldlM _ system.blockSize readings .empty

/-- No count overflows exactly if the sizes fit. There are not that many records that anything else
could be too much. -/
theorem exists_counted_iff (system : FileSystem) (extents : Tree ExtentKey ExtentRecord)
    {readings : List Reading} (few : readings.length ≤ 2 ^ 48) :
    (∃ summary, system.counted extents readings = .ok summary) ↔
      Reading.Fit (extents.direct (m := Id)).overflowSource readings := by
  have counts := system.counts_counted extents readings
  generalize system.counted extents readings = outcome at counts
  cases counts with
  | @counted summary gains =>
    have held (counter : Counter) :
        Reading.total (extents.direct (m := Id)).overflowSource readings counter < UInt64.size := by
      have count := gains.count counter
      rw [VolumeSummary.count_empty, UInt64.toNat_zero, Nat.zero_add] at count
      exact count ▸ UInt64.toNat_lt_size _
    exact ⟨fun _ => ⟨fun kind => ⟨held _, held _⟩, gains.fits⟩, fun _ => ⟨summary, rfl⟩⟩
  | overflowed exceeds =>
    refine ⟨nofun, fun fit => ?_⟩
    rcases exceeds with ⟨counter, excess⟩ | ⟨entry, member, excess⟩
    · rw [VolumeSummary.count_empty, UInt64.toNat_zero, Nat.zero_add] at excess
      exact absurd (Reading.total_lt _ few fit.forks counter) (Nat.not_lt.mpr excess)
    · exact absurd (fit.files entry member) (Nat.not_lt.mpr excess)

/-- What comes of a summary that has counted some records when the pass has ended. -/
def concluded (outcome : Except Error VolumeSummary) (fault : Option Error) :
    Except Error VolumeSummary :=
  if fault = some .overflow then .error .overflow
  else outcome.map (VolumeSummary.ended · fault)

/-- Without a shelf the summary counts all records that the pass is shown. -/
theorem direct_summary (catalogOpened : system.catalogTree = .ok catalog)
    (extentsOpened : system.extentsTree = .ok extents) (notEmpty : catalog.isEmpty = false)
    {leaves : List Node} {fault : Option Error}
    (passes : catalog.Passes 0 catalog.header.firstLeafNode leaves fault) :
    (system.direct (m := Id)).summary.run =
      concluded (system.counted extents (catalog.readingsIn leaves)) fault := by
  unfold Inspection.summary
  rw [run_bind_direct, direct_catalog catalogOpened]
  dsimp only [Except.bind]
  rw [run_bind_direct, direct_extents, extentsOpened]
  dsimp only [Except.map, Except.bind]
  rw [if_neg (by simp [Tree.direct, notEmpty])]
  have walked := passes.walkAfter (fun state node => VolumeSummary.addNode_leaf
      (extents.direct (m := Id)).overflowSource system.blockSize catalog node state)
    (fun state node => VolumeSummary.addNode_other
      (extents.direct (m := Id)).overflowSource system.blockSize catalog node state) .empty
  have lifted : (ExceptT.lift ((catalog.direct (m := Id)).walk false
      (VolumeSummary.addNode (extents.direct (m := Id)).overflowSource system.blockSize catalog)
      catalog.header.firstLeafNode .empty) : ExceptT Error Id _).run =
    .ok (((catalog.direct (m := Id)).walkAfter false
      (VolumeSummary.addNode (extents.direct (m := Id)).overflowSource system.blockSize catalog)
      0 catalog.header.firstLeafNode .empty).run) := rfl
  rw [run_bind_direct]
  refine (congrArg (Except.bind · _) lifted).trans ?_
  have counts := system.counts_counted extents (catalog.readingsIn leaves)
  have same : leaves.foldlM (fun summary leaf => (catalog.readings leaf).foldlM
      (VolumeSummary.addReading (extents.direct (m := Id)).overflowSource system.blockSize) summary)
      .empty = system.counted extents (catalog.readingsIn leaves) := by
    exact foldlM_flatMap _ _ _ _
  rw [same] at walked
  generalize system.counted extents (catalog.readingsIn leaves) = outcome at walked counts
  cases counts with
  | counted =>
    dsimp only at walked
    rw [walked]
    cases fault with
    | none => rfl
    | some cause => cases cause <;> rfl
  | overflowed =>
    dsimp only at walked
    generalize Id.run _ = ended at walked ⊢
    obtain ⟨summary, outcome⟩ := ended
    obtain rfl : outcome = .error .overflow := walked
    unfold concluded
    split <;> rfl

/-- A catalog that says it is empty is not passed over. -/
theorem direct_summary_empty (catalogOpened : system.catalogTree = .ok catalog)
    (extentsOpened : system.extentsTree = .ok extents) (empty : catalog.isEmpty = true) :
    (system.direct (m := Id)).summary.run = .ok .empty := by
  unfold Inspection.summary
  rw [run_bind_direct, direct_catalog catalogOpened]
  dsimp only [Except.bind]
  rw [run_bind_direct, direct_extents, extentsOpened]
  dsimp only [Except.map, Except.bind]
  rw [if_pos (by simp [Tree.direct, empty])]
  rfl

/-- The leaves of a catalog that a summary is made of, and the fault that ends it, if there is
one. -/
inductive Surveyed (catalog : Tree CatalogKey CatalogRecord) : List Node → Option Error → Prop
  | empty : catalog.isEmpty = true → Surveyed catalog [] none
  | passed {leaves : List Node} {fault : Option Error} : catalog.isEmpty = false →
    catalog.Passes 0 catalog.header.firstLeafNode leaves fault → Surveyed catalog leaves fault

/-- What is surveyed is settled by the catalog. -/
theorem Surveyed.unique {leaves others : List Node} {fault other : Option Error}
    (surveyed : Surveyed catalog leaves fault) (also : Surveyed catalog others other) :
    leaves = others ∧ fault = other := by
  cases surveyed with
  | empty empty =>
    cases also with
    | empty => exact ⟨rfl, rfl⟩
    | passed notEmpty => cases notEmpty.symm.trans empty
  | passed notEmpty passes =>
    cases also with
    | empty empty => cases notEmpty.symm.trans empty
    | passed _ others => exact passes.unique others

/-- It is the first leaf alone, where no other follows. -/
theorem Surveyed.single {leaf : Node} (notEmpty : catalog.isEmpty = false)
    (first : catalog.header.firstLeafNode ≠ 0)
    (parsed : catalog.parsed catalog.header.firstLeafNode = .ok leaf) (kind : leaf.kind = .leaf)
    (last : leaf.forwardLink = 0) : Surveyed catalog [leaf] none :=
  .passed notEmpty (.leaf first UInt32.zero_le parsed kind UInt32.toNat_one (last ▸ .ended))

/-- What comes of asking for a summary, whatever was asked before and however many nodes are
cached. -/
def Summarizes (system : FileSystem) (outcome : Except Error VolumeSummary) : Prop :=
  ∀ (capacity : Nat) (queries : List Query),
    let inspection := system.remembering (m := Id)
    let history := ((inspection.answers queries).run (.empty capacity)).2
    (inspection.summary.run.run history).1 = outcome

/-- It is what comes of it without a shelf. -/
theorem summarizes_direct (system : FileSystem) :
    system.Summarizes (system.direct (m := Id)).summary.run := by
  intro capacity queries inspection history
  have faithful : Shelf.Faithful system history :=
    (system.replies_of_faithful (Shelf.faithful_empty system capacity) queries).2
  have same := system.remembering_direct
  exact (system.faithfully.holds_run same.summary history faithful).1

/-- Where both trees open, a summary counts the records of the leaves that are surveyed. -/
theorem exists_surveyed (catalogOpened : system.catalogTree = .ok catalog)
    (extentsOpened : system.extentsTree = .ok extents) :
    ∃ leaves fault, Surveyed catalog leaves fault ∧
      system.Summarizes (concluded (system.counted extents (catalog.readingsIn leaves)) fault) := by
  cases empty : catalog.isEmpty with
  | true =>
    refine ⟨[], none, .empty empty, ?_⟩
    have direct := direct_summary_empty catalogOpened extentsOpened empty
    exact (direct ▸ system.summarizes_direct : system.Summarizes (.ok .empty))
  | false =>
    obtain ⟨leaves, fault, passes⟩ := catalog.exists_passes 0 catalog.header.firstLeafNode
    refine ⟨leaves, fault, .passed empty passes, ?_⟩
    have direct := direct_summary catalogOpened extentsOpened empty passes
    exact direct ▸ system.summarizes_direct

/-- Where one of them does not, this is what is answered. -/
theorem summarizes_refused {cause : Error} (refused : system.catalogTree = .error cause ∨
    ∃ catalog, system.catalogTree = .ok catalog ∧ system.extentsTree = .error cause) :
    system.Summarizes (.error cause) := by
  have direct : (system.direct (m := Id)).summary.run = .error cause := by
    unfold Inspection.summary
    obtain catalogRefused | ⟨catalog, catalogOpened, extentsRefused⟩ := refused
    · have direct_catalog : (system.direct (m := Id)).catalog.run = .error cause := by
        change (Tree.direct <$> system.openCatalog (system.direct (m := Id)).extents :
          ExceptT Error Id _).run = _
        rw [map_eq_pure_bind, run_bind_direct]
        change system.catalogTree.bind _ = _
        rw [catalogRefused]
        rfl
      rw [run_bind_direct, direct_catalog]
      rfl
    · rw [run_bind_direct, direct_catalog catalogOpened]
      dsimp only [Except.bind]
      rw [run_bind_direct, direct_extents, extentsRefused]
      rfl
  exact direct ▸ system.summarizes_direct

/-- There are no more records in these leaves than a word can count. -/
theorem Surveyed.length_readingsIn_le {leaves : List Node} {fault : Option Error}
    (surveyed : Surveyed catalog leaves fault) : (catalog.readingsIn leaves).length ≤ 2 ^ 48 := by
  cases surveyed with
  | empty => exact Nat.zero_le _
  | passed _ passes =>
    exact VolumeSummary.length_readingsIn_le passes

section Concluding

variable (system : FileSystem) (extents : Tree ExtentKey ExtentRecord) {readings : List Reading}
variable {fault : Option Error}

/-- A summary that is answered has gained the records that it counts. -/
theorem gains_of_concluded {summary : VolumeSummary}
    (answered : concluded (system.counted extents readings) fault = .ok summary) :
    ∃ gained, VolumeSummary.empty.Gains
        (Reading.total (extents.direct (m := Id)).overflowSource readings) (Reading.files readings)
        (Reading.inPieces (extents.direct (m := Id)).overflowSource readings) gained ∧
      gained.ended fault = summary := by
  unfold concluded at answered
  split at answered
  · cases answered
  · have counts := system.counts_counted extents readings
    generalize system.counted extents readings = outcome at answered counts
    cases counts with
    | @counted gained gains =>
      obtain ⟨⟩ := answered
      exact ⟨gained, gains, rfl⟩
    | overflowed => cases answered

/-- There is a summary where the sizes fit and the steps of the pass could be counted. -/
theorem concluded_of_fit (few : readings.length ≤ 2 ^ 48)
    (fit : Reading.Fit (extents.direct (m := Id)).overflowSource readings)
    (stepwise : fault ≠ some .overflow) :
    ∃ summary, concluded (system.counted extents readings) fault = .ok summary := by
  obtain ⟨summary, counted⟩ := (system.exists_counted_iff extents few).mpr fit
  refine ⟨summary.ended fault, ?_⟩
  rw [concluded, if_neg stepwise, counted]
  rfl

/-- Everywhere else it overflows. -/
theorem concluded_of_not_fit (few : readings.length ≤ 2 ^ 48)
    (excess : ¬ (Reading.Fit (extents.direct (m := Id)).overflowSource readings ∧
      fault ≠ some .overflow)) :
    concluded (system.counted extents readings) fault = .error .overflow := by
  unfold concluded
  split
  next => rfl
  next stepwise =>
    have counts := system.counts_counted extents readings
    have counted := (system.exists_counted_iff extents few).not.mpr fun fit => excess ⟨fit, stepwise⟩
    generalize system.counted extents readings = outcome at counts counted
    cases counts with
    | @counted gained _ => exact absurd ⟨gained, rfl⟩ counted
    | overflowed => rfl

end Concluding

/-- **A summary is a sum over the leaves.** Let the catalog and the overflow tree of a volume
open, and let the catalog not be empty; nothing else is asked of the bytes. Then a pass over the
leaves is shown some of them and may end with a fault. If the steps of the pass can be counted and
the sizes of the records fit into words, the volume has a summary that accounts for these leaves and
this fault, whatever was asked before and however many nodes are cached. If the steps cannot be
counted, what is answered is an overflow; and, as long as no node is refused for one, this is so
exactly where the tree claims `2 ^ 32 - 1` nodes and its leaves come back to one that was met. -/
theorem summary_exact (catalogOpened : system.catalogTree = .ok catalog)
    (extentsOpened : system.extentsTree = .ok extents) (notEmpty : catalog.isEmpty = false) :
    ∃ leaves fault, catalog.Passes 0 catalog.header.firstLeafNode leaves fault ∧
      (fault ≠ some .overflow →
        Reading.Fit (extents.direct (m := Id)).overflowSource (catalog.readingsIn leaves) →
        ∃ summary : VolumeSummary, summary.AccountsFor (extents.direct (m := Id)).overflowSource
            catalog leaves fault ∧ system.Summarizes (.ok summary)) ∧
      (fault = some .overflow → system.Summarizes (.error .overflow)) ∧
      ((∀ number, catalog.parsed number ≠ .error .overflow) →
        (fault = some .overflow ↔ catalog.header.totalNodes.toNat + 1 = 2 ^ 32 ∧
          Tree.Circles catalog.shownLeaf catalog.header.firstLeafNode)) := by
  obtain ⟨leaves, fault, passes⟩ := catalog.exists_passes 0 catalog.header.firstLeafNode
  have few := VolumeSummary.length_readingsIn_le passes
  have direct := direct_summary catalogOpened extentsOpened notEmpty passes
  refine ⟨leaves, fault, passes, fun stepwise fit => ?_, fun excess => ?_, passes.overflow_iff⟩
  · obtain ⟨summary, concluded⟩ := system.concluded_of_fit extents few fit stepwise
    obtain ⟨gained, gains, rfl⟩ := system.gains_of_concluded extents concluded
    exact ⟨_, gains.accountsFor passes, direct.trans concluded ▸ system.summarizes_direct⟩
  · have concluded := system.concluded_of_not_fit extents few fun both => both.2 excess
    exact direct.trans concluded ▸ system.summarizes_direct

section Sample

/-! The catalog of a volume with a folder, a file of which a block is missing, a record of no
known type, and behind them a link to a leaf that the tree does not have. -/

/-- The file has two blocks, and one of them is mapped. -/
def halfMapped : CatalogFile :=
  { sampleFile 16 with dataFork := { sampleFork 2048 0 1 with totalBlocks := 2 } }

/-- The records of the only leaf. -/
def damagedLeaf : List Bytes :=
  [recordBytes ⟨1, .ofText "root"⟩ (.folder (sampleFolder 2)),
    recordBytes (.thread 2) (.folderThread ⟨1, .ofText "root"⟩),
    recordBytes ⟨2, .ofText "a"⟩ (.file halfMapped),
    recordBytes ⟨2, .ofText "b"⟩ (.folder { sampleFolder 17 with recordType := 9 }),
    recordBytes ⟨2, .ofText "c"⟩ (.folder (sampleFolder 18))]

/-- The volume. -/
def damaged : FileSystem :=
  let image := Tree.nodeBytes 512 0 1 0 [Stored.encode (sampleHeader 512 0)] ++
    List.replicate 512 0 ++ Tree.nodeBytes 1024 0 1 0 [Stored.encode (sampleHeader 1024 5)] ++
    Tree.nodeBytes 1024 9 255 1 damagedLeaf
  { sample with
    window := ⟨some 3072, fun offset wanted => .ok ((image.drop offset).take wanted)⟩ }

/-- Both trees open, and the records of the leaf add something to some counts. -/
theorem damaged_opened : ∃ catalog ∈ damaged.catalogTree.toOption,
    ∃ extents ∈ damaged.extentsTree.toOption, ∃ leaf ∈ (catalog.parsed 1).toOption,
      let readings := catalog.readingsIn [leaf]
      let total := Reading.total (extents.direct (m := Id)).overflowSource readings
      (catalog.header = sampleHeader 1024 5 ∧ catalog.schema.name = "catalog" ∧
        leaf.kind = .leaf ∧ leaf.forwardLink = 9) ∧
      ((∀ kind ∈ [ForkKind.data, .resource], total (.ofForks kind .logicalBytes) ≤ 2048 ∧
        total (.ofForks kind .allocatedBlocks) ≤ 2) ∧
        ∀ entry ∈ Reading.files readings, entry.size ≤ 2048) ∧
      [Counter.files, .folders, .threadRecords, .damagedRecords,
        .ofForks .data .allocatedBlocks].map total = [1, 1, 1, 2, 2] := by decide +kernel

/-- The file is counted, though it and the record behind it are damaged, and so is what follows
them. The link ends the pass. -/
theorem summary_exact_sample : ∃ catalog extents leaf summary,
    damaged.catalogTree = .ok catalog ∧ damaged.extentsTree = .ok extents ∧
      catalog.Passes 0 1 [leaf] (some (.nodeOutOfRange "catalog" 9 2)) ∧
      (((damaged.remembering (m := Id)).summary.run.run (.empty 4)).1 = .ok summary ∧
        [Counter.files, .folders, .threadRecords, .damagedRecords,
          .ofForks .data .allocatedBlocks].map (fun counter => (summary.count counter).toNat) =
            [1, 1, 1, 2, 2] ∧
        summary.truncated = true ∧
        summary.warnings = ["catalog node 9 out of range (tree has 2 nodes)"]) := by
  obtain ⟨catalog, catalogOpened, extents, extentsOpened, leaf, parsed, pass, sizes, totals⟩ :=
    damaged_opened
  rw [mem_toOption] at catalogOpened extentsOpened parsed
  obtain ⟨header, name, kind, link⟩ := pass
  have two : catalog.header.totalNodes = 2 := by rw [header]; rfl
  have refused : catalog.parsed 9 = .error (.nodeOutOfRange "catalog" 9 2) := by
    rw [Tree.parsed, Tree.checkRange, if_pos (by rw [two]; decide), name, two]
    rfl
  have behind : catalog.Passes 1 9 [] (some (.nodeOutOfRange "catalog" 9 2)) :=
    .unreadable (by decide) (by rw [two]; decide) refused
  have expected : catalog.Passes 0 1 [leaf] (some (.nodeOutOfRange "catalog" 9 2)) :=
    .leaf (by decide) UInt32.zero_le parsed kind UInt32.toNat_one (by rw [link]; exact behind)
  obtain ⟨leaves, fault, passes, sound, -, -⟩ :=
    summary_exact catalogOpened extentsOpened (by rw [Tree.isEmpty, header]; decide)
  rw [header] at passes
  obtain ⟨rfl, rfl⟩ := Tree.Passes.unique expected passes
  have forks : Reading.SizesFit (extents.direct (m := Id)).overflowSource
      (catalog.readingsIn [leaf]) := by
    intro kind
    obtain ⟨bytes, blocks⟩ := sizes.1 kind (by cases kind <;> decide)
    exact ⟨Nat.lt_of_le_of_lt bytes (by decide), Nat.lt_of_le_of_lt blocks (by decide)⟩
  obtain ⟨summary, accounts, answered⟩ := sound (by decide)
    ⟨forks, fun entry member => Nat.lt_of_le_of_lt (sizes.2 entry member) (by decide)⟩
  refine ⟨catalog, extents, leaf, summary, catalogOpened, extentsOpened, expected,
    answered 4 [], ?_, accounts.truncated, accounts.warnings⟩
  rw [← totals]
  exact List.map_congr_left fun counter _ => accounts.counts counter

end Sample

section Circling

/-! Seven blocks that are a volume with an overflow tree without records and a catalog of one leaf;
and among these volumes one of which the catalog claims `2 ^ 32 - 1` nodes, and the leaf has no
records and links to itself. -/

/-- The header of such a volume. -/
def sevenHeader : VolumeHeader :=
  { Stored.zero VolumeHeader with
    signature := 0x482B, blockSize := 512, extentsFile := sampleFork 1024 3 2
    catalogFile := sampleFork 1024 5 2 }

/-- Its bytes, from what describes the catalog and from the leaf. -/
def sevenBlocks (catalog : TreeHeader) (leaf : Bytes) : Bytes :=
  List.replicate 1024 0 ++ Stored.encode sevenHeader ++
    Tree.nodeBytes 512 0 1 0 [Stored.encode (sampleHeader 512 0)] ++ List.replicate 512 0 ++
    Tree.nodeBytes 512 0 1 0 [Stored.encode catalog] ++ leaf

/-- The description of the circling catalog. -/
def circlingHeader : TreeHeader := { sampleHeader 512 1 with totalNodes := 0xFFFFFFFF }

/-- The bytes of its volume. -/
def circlingBytes : Bytes := sevenBlocks circlingHeader (Tree.nodeBytes 512 1 255 1 [])

/-- The volume. -/
def circling : Volume := .ofImage ⟨circlingBytes.toArray⟩

/-- The file system on it. -/
def circlingSystem : FileSystem := .onImage circlingBytes sevenHeader

/-- It is mounted. -/
theorem circling_mounted : ∃ mount, (circling.mount : ExceptT Error Id Mount).run = .ok mount ∧
    mount.volume = circling ∧ mount.system = circlingSystem :=
  Volume.mount_ofImage (by decide +kernel) (by decide +kernel) (by decide +kernel)
    (by decide +kernel)

/-- Both trees open. -/
theorem circling_opened : ∃ catalog ∈ circlingSystem.catalogTree.toOption,
    ∃ extents ∈ circlingSystem.extentsTree.toOption, ∃ leaf ∈ (catalog.parsed 1).toOption,
      catalog.header = circlingHeader ∧ leaf.kind = .leaf ∧ leaf.number = 1 ∧
        leaf.forwardLink = 1 ∧ leaf.descriptor.numRecords = 0 := by decide +kernel

/-- Such a volume can be mounted. Of it there is no summary that says that the chain is too long, and
none at all: the steps of the pass overflow, though all counts stay at nothing. -/
theorem summary_circles : ∃ mount : Mount,
    (circling.mount : ExceptT Error Id Mount).run = .ok mount ∧
    ∃ catalog extents leaf,
      mount.system.catalogTree = .ok catalog ∧ mount.system.extentsTree = .ok extents ∧
        catalog.isEmpty = false ∧ catalog.header = circlingHeader ∧
        catalog.parsed 1 = .ok leaf ∧ leaf.kind = .leaf ∧ leaf.forwardLink = 1 ∧
        leaf.descriptor.numRecords = 0 ∧ mount.system.Summarizes (.error .overflow) := by
  obtain ⟨mount, mounted, -, system⟩ := circling_mounted
  obtain ⟨catalog, catalogOpened, extents, extentsOpened, leaf, parsed, header, kind, number, link,
    empty⟩ := circling_opened
  rw [mem_toOption] at catalogOpened extentsOpened parsed
  have notEmpty : catalog.isEmpty = false := by rw [Tree.isEmpty, header]; decide
  have first : catalog.header.firstLeafNode = 1 := by rw [header]; rfl
  have shown : catalog.shownLeaf 1 = .ok leaf := Tree.shownLeaf_eq_ok.mpr ⟨parsed, kind⟩
  have circles : Tree.Circles catalog.shownLeaf catalog.header.firstLeafNode := by
    rw [first]
    refine ⟨[leaf], 1, .step (by decide) shown (link ▸ .here), ?_⟩
    rw [List.map_singleton, number]
    exact List.mem_singleton_self 1
  obtain ⟨leaves, fault, passes⟩ := catalog.exists_passes 0 catalog.header.firstLeafNode
  have excess : fault = some .overflow :=
    passes.overflow_of_circles (by rw [header]; rfl) circles
  have direct := direct_summary catalogOpened extentsOpened notEmpty passes
  rw [concluded, if_pos excess] at direct
  have answered : circlingSystem.Summarizes (.error .overflow) :=
    direct ▸ circlingSystem.summarizes_direct
  rw [← system] at catalogOpened extentsOpened answered
  exact ⟨mount, mounted, catalog, extents, leaf, catalogOpened, extentsOpened, notEmpty, header,
    parsed, kind, link, empty, answered⟩

end Circling

end FileSystem

end HfsPlus
