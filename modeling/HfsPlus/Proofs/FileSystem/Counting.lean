import HfsPlus.Proofs.FileSystem.Totals

/-!
# What a step of the pass does to a summary

A step of the pass adds what one record counts for to a summary. Either each count grows by exactly
its share, the file of the record and its forks in pieces are put into the rankings, and nothing else
changes, `VolumeSummary.Gains`; or a word cannot hold one of the sums, and the count overflows,
`VolumeSummary.Exceeds`. There is no third way, `VolumeSummary.Counts`, and so there is none for
records that are counted one after the other, each with the share of all that came before.
-/

namespace HfsPlus

/-- The runs of a fork are eight for itself and for each of its records, or fewer. -/
theorem ForkData.length_runs_le (data : ForkData) (records : List ExtentRecord) :
    (data.runs records).length ≤ 8 * (records.length + 1) := by
  have own := data.extents.length_used_le
  have further : (records.map fun record => record.used.length).sum ≤
      (records.map fun record => record.used.length).length • 8 := by
    refine List.sum_le_card_nsmul _ _ fun length member => ?_
    obtain ⟨record, _, rfl⟩ := List.mem_map.mp member
    exact record.length_used_le
  rw [List.length_map, smul_eq_mul] at further
  rw [runs, List.length_append, List.length_flatMap]
  omega

/-- A file of a catalog with the name that it is kept under. -/
structure NamedFile where
  name : Name
  file : CatalogFile

namespace NamedFile

/-- The size of both forks together. -/
def size (entry : NamedFile) : Nat :=
  entry.file.dataFork.logicalSize.toNat + entry.file.resourceFork.logicalSize.toNat

/-- What a summary keeps of a file that it ranks. -/
def ranked (entry : NamedFile) : RankedFile :=
  ⟨entry.file.fileId, entry.name,
    entry.file.dataFork.logicalSize + entry.file.resourceFork.logicalSize⟩

/-- A size that a word holds is kept as it is. -/
theorem size_ranked {entry : NamedFile} (fits : entry.size < UInt64.size) :
    entry.ranked.size.toNat = entry.size := by
  rw [ranked, UInt64.toNat_add]
  exact Nat.mod_eq_of_lt fits

section Pieces

variable (overflow : OverflowSource Id)

/-- In how many extents a fork of a file is, unless it is empty or they cannot all be resolved. -/
def extentsOf (entry : NamedFile) (kind : ForkKind) : Option Nat :=
  if (entry.file.fork kind).isEmpty then none
  else (Fork.pieces? overflow (entry.file.fork kind) kind entry.file.fileId).map Fork.Pieces.extents

/-- A fork of a file as a summary ranks it, if it is in more than one extent. -/
def piecesOf (entry : NamedFile) (kind : ForkKind) : Option RankedFork :=
  ((entry.extentsOf overflow kind).filter (1 < ·)).map fun extents =>
    ⟨entry.file.fileId, entry.name, kind, extents⟩

/-- The forks of a file that are in pieces, the data fork before the resource fork. -/
def inPieces (entry : NamedFile) : List RankedFork :=
  (entry.piecesOf overflow .data).toList ++ (entry.piecesOf overflow .resource).toList

variable {overflow} {entry : NamedFile} {kind : ForkKind}

/-- These are as many as the runs in the fork's own data and in the records that make all its
blocks known. -/
theorem extentsOf_eq_some {extents : Nat} : entry.extentsOf overflow kind = some extents ↔
    ¬ (entry.file.fork kind).isEmpty = true ∧
      ∃ records, Fork.Resolved overflow (entry.file.fork kind) kind entry.file.fileId records ∧
        ((entry.file.fork kind).runs records).length = extents := by
  unfold extentsOf
  split
  next empty => simp [empty]
  next some_ => simp [some_, Fork.pieces?_eq_some]

/-- There are not that many that a word could not hold their number. -/
theorem extentsOf_lt {extents : Nat} (found : entry.extentsOf overflow kind = some extents) :
    extents < UInt64.size := by
  obtain ⟨-, records, resolved, rfl⟩ := extentsOf_eq_some.mp found
  have runs := (entry.file.fork kind).length_runs_le records
  have few := resolved.chained.length_le
  have blocks := (entry.file.fork kind).totalBlocks.toNat_lt
  have size : UInt64.size = 2 ^ 64 := rfl
  omega

/-- So it is with each fork in pieces. -/
theorem extents_lt_of_mem {fork : RankedFork} (member : fork ∈ entry.inPieces overflow) :
    fork.extents < UInt64.size := by
  obtain ⟨kind, found⟩ : ∃ kind, entry.piecesOf overflow kind = some fork := by
    rcases List.mem_append.mp member with data | resource
    · exact ⟨.data, Option.mem_toList.mp data⟩
    · exact ⟨.resource, Option.mem_toList.mp resource⟩
  obtain ⟨extents, filtered, rfl⟩ := Option.map_eq_some_iff.mp found
  exact extentsOf_lt (Option.filter_eq_some_iff.mp filtered).1

end Pieces

end NamedFile

namespace Catalog.Reading

/-- The file that was read, if it is one. -/
def file? : Reading → Option NamedFile
  | .ok (key, .file file) => some ⟨key.name, file⟩
  | _ => none

/-- The files among some records, in their order. -/
def files (readings : List Reading) : List NamedFile := readings.filterMap file?

/-- The forks in pieces of these files. -/
def inPieces (overflow : OverflowSource Id) (readings : List Reading) : List RankedFork :=
  (files readings).flatMap (NamedFile.inPieces overflow)

/-- No sum of sizes goes beyond a word: not that of all forks of a kind, nor of their blocks, nor of
the two sizes of a file. -/
structure Fit (overflow : OverflowSource Id) (readings : List Reading) : Prop where
  forks : SizesFit overflow readings
  files : ∀ entry ∈ files readings, entry.size < 2 ^ 64

end Catalog.Reading

open Catalog (Reading)

/-- A count that was set has the value, and no other has changed. -/
theorem ForkSummary.count_set (forks : ForkSummary) (counter other : ForkCounter) (value : UInt64) :
    (forks.set counter value).count other = if other = counter then value else forks.count other := by
  cases counter <;> cases other <;> rfl

namespace VolumeSummary

/-- A count that was set has the value, and no other has changed. -/
theorem count_set (summary : VolumeSummary) (counter other : Counter) (value : UInt64) :
    (summary.set counter value).count other =
      if other = counter then value else summary.count other := by
  cases counter with
  | ofForks kind counter =>
    cases other with
    | ofForks otherKind other =>
      cases kind <;> cases otherKind <;> simp [set, count, ForkSummary.count_set]
    | _ => cases kind <;> rfl
  | _ =>
    cases other with
    | ofForks kind other => cases kind <;> rfl
    | _ => rfl

/-- After something was counted each count has grown by its share, the files and forks have been
ranked, and the summary says the same of the pass. A word holds the sizes of the files. -/
structure Gains (before : VolumeSummary) (share : Counter → Nat) (files : List NamedFile)
    (forks : List RankedFork) (after : VolumeSummary) : Prop where
  count : ∀ counter, (after.count counter).toNat = (before.count counter).toNat + share counter
  fits : ∀ entry ∈ files, entry.size < UInt64.size
  largestFiles : after.largestFiles =
    (files.map NamedFile.ranked).foldl (pushRanked RankedFile.size) before.largestFiles
  mostFragmented : after.mostFragmented =
    forks.foldl (pushRanked fun fork => UInt64.ofNat fork.extents) before.mostFragmented
  truncated : after.truncated = before.truncated
  warnings : after.warnings = before.warnings

/-- A word cannot hold one of the counts with its share, or the size of one of the files. -/
def Exceeds (before : VolumeSummary) (share : Counter → Nat) (files : List NamedFile) : Prop :=
  (∃ counter, UInt64.size ≤ (before.count counter).toNat + share counter) ∨
    ∃ entry ∈ files, UInt64.size ≤ entry.size

/-- What comes of counting something: it is counted, or it overflows. -/
inductive Counts (before : VolumeSummary) (share : Counter → Nat) (files : List NamedFile)
    (forks : List RankedFork) : Except Error VolumeSummary → Prop
  | counted {after : VolumeSummary} : before.Gains share files forks after →
    Counts before share files forks (.ok after)
  | overflowed : before.Exceeds share files → Counts before share files forks (.error .overflow)

section Steps

variable {before between after : VolumeSummary} {share more : Counter → Nat}
variable {files moreFiles : List NamedFile} {forks moreForks : List RankedFork}

/-- What is counted one after the other adds up. -/
theorem Gains.trans (gains : before.Gains share files forks between)
    (further : between.Gains more moreFiles moreForks after) :
    before.Gains (fun counter => share counter + more counter) (files ++ moreFiles)
      (forks ++ moreForks) after where
  count counter := by rw [further.count, gains.count, Nat.add_assoc]
  fits entry member := (List.mem_append.mp member).elim (gains.fits entry) (further.fits entry)
  largestFiles := by
    rw [List.map_append, List.foldl_append, ← gains.largestFiles, further.largestFiles]
  mostFragmented := by rw [List.foldl_append, ← gains.mostFragmented, further.mostFragmented]
  truncated := further.truncated.trans gains.truncated
  warnings := further.warnings.trans gains.warnings

/-- Counting nothing adds nothing. -/
theorem Gains.nothing : before.Gains (fun _ => 0) [] [] before :=
  ⟨fun _ => rfl, fun _ member => (List.not_mem_nil member).elim, rfl, rfl, rfl, rfl⟩

/-- What is too much is too much with more behind it. -/
theorem Exceeds.extend (exceeds : before.Exceeds share files) :
    before.Exceeds (fun counter => share counter + more counter) (files ++ moreFiles) := by
  rcases exceeds with ⟨counter, excess⟩ | ⟨entry, member, excess⟩
  · exact .inl ⟨counter, Nat.le_trans excess (Nat.add_le_add_left (Nat.le_add_right _ _) _)⟩
  · exact .inr ⟨entry, List.mem_append_left _ member, excess⟩

/-- What is too much behind something else is too much together with it. -/
theorem Exceeds.behind (exceeds : between.Exceeds more moreFiles)
    (gains : before.Gains share files forks between) :
    before.Exceeds (fun counter => share counter + more counter) (files ++ moreFiles) := by
  rcases exceeds with ⟨counter, excess⟩ | ⟨entry, member, excess⟩
  · rw [gains.count, Nat.add_assoc] at excess
    exact .inl ⟨counter, excess⟩
  · exact .inr ⟨entry, List.mem_append_right _ member, excess⟩

/-- Counting one thing and then another counts both, or overflows at one of them. -/
theorem Counts.bind {outcome : Except Error VolumeSummary}
    {next : VolumeSummary → Except Error VolumeSummary} (first : before.Counts share files forks outcome)
    (second : ∀ between : VolumeSummary, between.Counts more moreFiles moreForks (next between)) :
    before.Counts (fun counter => share counter + more counter) (files ++ moreFiles)
      (forks ++ moreForks) (outcome.bind next) := by
  cases first with
  | overflowed exceeds => exact .overflowed exceeds.extend
  | @counted between gains =>
    change before.Counts _ _ _ (next between)
    cases behind : next between with
    | ok after =>
      have further := second between
      rw [behind] at further
      cases further with
      | counted further => exact .counted (gains.trans further)
    | error cause =>
      have further := second between
      rw [behind] at further
      cases further with
      | overflowed exceeds => exact .overflowed (exceeds.behind gains)

/-- Counting nothing adds nothing. -/
theorem Counts.nothing : before.Counts (fun _ => 0) [] [] (.ok before) := .counted .nothing

/-- What is counted is settled by how much is added to each count. -/
theorem Counts.of_share {outcome : Except Error VolumeSummary}
    (counts : before.Counts share files forks outcome) (same : ∀ counter, share counter = more counter) :
    before.Counts more files forks outcome :=
  (funext same : share = more) ▸ counts

end Steps

section Adding

variable (summary : VolumeSummary)

/-- Setting a count changes nothing else. -/
theorem set_apart (counter : Counter) (value : UInt64) :
    (summary.set counter value).largestFiles = summary.largestFiles ∧
      (summary.set counter value).mostFragmented = summary.mostFragmented ∧
      (summary.set counter value).truncated = summary.truncated ∧
      (summary.set counter value).warnings = summary.warnings := by
  cases counter with
  | ofForks kind counter => cases kind <;> exact ⟨rfl, rfl, rfl, rfl⟩
  | _ => exact ⟨rfl, rfl, rfl, rfl⟩

/-- Letting one count grow adds to it alone. -/
theorem counts_add (counter : Counter) (amount : UInt64) :
    summary.Counts (Counter.only counter amount.toNat) [] [] (summary.add counter amount) := by
  unfold add
  cases summed : checkedSum (summary.count counter) amount with
  | error cause =>
    obtain ⟨rfl, excess⟩ := checkedSum_eq_error.mp summed
    refine .overflowed (.inl ⟨counter, ?_⟩)
    rwa [Counter.only, if_pos rfl]
  | ok sum =>
    obtain ⟨largestFiles, mostFragmented, truncated, warnings⟩ := summary.set_apart counter sum
    refine .counted ⟨fun other => ?_, fun _ member => (List.not_mem_nil member).elim, largestFiles,
      mostFragmented, truncated, warnings⟩
    rw [count_set, Counter.only]
    split
    next same => rw [checkedSum_eq_ok.mp summed, same]
    next => rfl

/-- Counting one more where a condition holds adds the condition. -/
theorem counts_addWhere (condition : Bool) (counter : Counter) :
    summary.Counts (Counter.only counter condition.toNat) [] [] (summary.addWhere condition counter) := by
  cases condition with
  | true => exact summary.counts_add counter 1
  | false => exact Counts.nothing.of_share fun other => (ite_self 0).symm

/-- Counting a folder adds its share. -/
theorem counts_addFolder (folder : CatalogFolder) :
    summary.Counts folder.share [] [] (summary.addFolder folder) := by
  unfold addFolder
  by_cases root : folder.folderId = rootFolderId
  · rw [if_pos root]
    exact Counts.nothing.of_share fun counter => (if_pos root).symm
  · rw [if_neg root]
    refine ((summary.counts_add .folders 1).bind fun folders =>
      (folders.counts_addWhere (folder.valence == 0) .emptyFolders).bind fun emptyFolders =>
        emptyFolders.counts_addWhere folder.isInvisible .invisible).of_share fun counter => ?_
    cases counter <;> simp [CatalogFolder.share, root, Counter.only]

/-- A file is ranked by the sum of both sizes, if a word holds it. -/
theorem counts_rankFile (name : Name) (file : CatalogFile) :
    summary.Counts (fun _ => 0) [⟨name, file⟩] []
      ((checkedSum file.dataFork.logicalSize file.resourceFork.logicalSize).bind fun size =>
        .ok { summary with
          largestFiles :=
            pushRanked RankedFile.size summary.largestFiles ⟨file.fileId, name, size⟩ }) := by
  cases summed : checkedSum file.dataFork.logicalSize file.resourceFork.logicalSize with
  | error cause =>
    obtain ⟨rfl, excess⟩ := checkedSum_eq_error.mp summed
    exact .overflowed (.inr ⟨_, List.mem_singleton_self _, excess⟩)
  | ok size =>
    have total := checkedSum_eq_ok.mp summed
    have fits : file.dataFork.logicalSize.toNat + file.resourceFork.logicalSize.toNat <
        UInt64.size := total ▸ size.toNat_lt
    obtain rfl : size = file.dataFork.logicalSize + file.resourceFork.logicalSize :=
      UInt64.toNat_inj.mp (by rw [total, UInt64.toNat_add, Nat.mod_eq_of_lt fits])
    refine .counted ⟨fun _ => rfl, fun entry member => ?_, rfl, rfl, rfl, rfl⟩
    obtain rfl := List.mem_singleton.mp member
    exact fits

/-- Counting a file record adds what the file is as a whole, and ranks the file. -/
theorem counts_addFileRecord (name : Name) (file : CatalogFile) :
    summary.Counts file.ownShare [⟨name, file⟩] [] (summary.addFileRecord name file) := by
  refine ((summary.counts_add .files 1).bind fun files =>
    (files.counts_addWhere file.isHardLink .hardLinks).bind fun hardLinks =>
    (hardLinks.counts_addWhere _ .directoryHardLinks).bind fun folderLinks =>
    (folderLinks.counts_addWhere _ .symbolicLinks).bind fun symbolicLinks =>
    (symbolicLinks.counts_addWhere file.isAlias .aliases).bind fun aliases =>
    (aliases.counts_addWhere file.isInvisible .invisible).bind fun invisible =>
    (invisible.counts_addWhere _ .emptyFiles).bind fun emptyFiles =>
    emptyFiles.counts_rankFile name file).of_share fun counter => ?_
  cases counter <;> simp [CatalogFile.ownShare, Counter.only]

/-- Counting what a fork's own data says adds its share. -/
theorem counts_addForkData (kind : ForkKind) (data : ForkData) :
    summary.Counts (Counter.ofKind kind data.share) [] [] (summary.addForkData kind data) := by
  have few : data.extents.used.length < UInt64.size :=
    Nat.lt_of_le_of_lt data.extents.length_used_le (by decide)
  refine ((summary.counts_add (.ofForks kind .forks) 1).bind fun forks =>
    (forks.counts_add (.ofForks kind .logicalBytes) data.logicalSize).bind fun bytes =>
    (bytes.counts_add (.ofForks kind .allocatedBlocks) data.totalBlocks.toUInt64).bind fun blocks =>
    blocks.counts_add (.ofForks kind .inlineExtents) _).of_share
    (Counter.eq_ofKind (fun counter => ?_) fun counter others => ?_)
  · cases counter <;> simp [Counter.only, ForkData.share, UInt64.toNat_ofNat_of_lt' few]
  · simp only [Counter.only, others, ↓reduceIte, Nat.add_zero]

/-- Putting a fork into the ranking, if it is in several pieces, changes no count. -/
theorem counts_rankFork (name : Name) (file : UInt32) (kind : ForkKind) (extents : Nat) :
    summary.Counts (fun _ => 0) []
      (((some extents).filter (1 < ·)).map fun extents => ⟨file, name, kind, extents⟩).toList
      (if extents ≤ 1 then .ok summary
        else .ok { summary with
          mostFragmented := pushRanked (fun fork => UInt64.ofNat fork.extents)
            summary.mostFragmented ⟨file, name, kind, extents⟩ }) := by
  by_cases single : extents ≤ 1
  · simp only [single, ↓reduceIte, Option.filter_some, Nat.not_lt.mpr single, decide_false]
    exact .nothing
  · simp only [single, ↓reduceIte, Option.filter_some, Nat.not_le.mp single, decide_true]
    exact .counted ⟨fun _ => rfl, fun _ member => (List.not_mem_nil member).elim, rfl, rfl, rfl, rfl⟩

/-- Counting the pieces of a fork adds their share, and ranks the fork if there are several. -/
theorem counts_addPieces (name : Name) (file : UInt32) (kind : ForkKind) (pieces : Fork.Pieces)
    (few : pieces.records < UInt64.size) :
    summary.Counts (Counter.ofKind kind pieces.share) []
      (((some pieces.extents).filter (1 < ·)).map fun extents => ⟨file, name, kind, extents⟩).toList
      (summary.addPieces name file kind pieces.records pieces.extents) := by
  refine ((summary.counts_add (.ofForks kind .overflowRecords) _).bind fun records =>
    (records.counts_addWhere _ (.ofForks kind .fragmented)).bind fun fragmented =>
    fragmented.counts_rankFork name file kind pieces.extents).of_share
    (Counter.eq_ofKind (fun counter => ?_) fun counter others => ?_)
  · cases counter <;> simp [Counter.only, Fork.Pieces.share, UInt64.toNat_ofNat_of_lt' few]
  · simp only [Counter.only, others, ↓reduceIte, Nat.add_zero]

variable (overflow : OverflowSource Id) (blockSize : Nat)

/-- A fork is counted by its data, and by its pieces if all its extents can be resolved. -/
theorem addFork_run (name : Name) (file : CatalogFile) (kind : ForkKind)
    (some_ : ¬ (file.fork kind).isEmpty = true) :
    (addFork overflow blockSize name file summary kind : ExceptT Error Id _).run =
      (summary.addForkData kind (file.fork kind)).bind fun summary =>
        match Fork.pieces? overflow (file.fork kind) kind file.fileId with
        | some pieces => summary.addPieces name file.fileId kind pieces.records pieces.extents
        | none => summary.add .damagedRecords 1 := by
  rw [Fork.loadAll_pieces? blockSize]
  unfold addFork
  dsimp only
  rw [if_neg some_]
  generalize (Fork.loadAll overflow).run.run
    (Fork.ofData (file.fork kind) kind file.fileId blockSize) = loaded
  rw [run_bind_direct]
  refine congrArg (Except.bind _) (funext fun summary => ?_)
  obtain ⟨_ | _, _⟩ := loaded
  · rfl
  · rfl

/-- Counting a fork adds its share, whether its extents can be resolved or not, and ranks it if it
is in pieces. -/
theorem counts_addFork (entry : NamedFile) (kind : ForkKind) :
    summary.Counts (entry.file.forkShare overflow kind) [] (entry.piecesOf overflow kind).toList
      (addFork overflow blockSize entry.name entry.file summary kind : ExceptT Error Id _).run := by
  unfold NamedFile.piecesOf NamedFile.extentsOf
  by_cases empty : (entry.file.fork kind).isEmpty = true
  · have same : (addFork overflow blockSize entry.name entry.file summary kind :
        ExceptT Error Id _).run = .ok summary := by
      unfold addFork
      simp only [empty, ↓reduceIte]
      rfl
    rw [same, if_pos empty]
    exact Counts.nothing.of_share fun counter => (if_pos empty).symm
  · rw [addFork_run summary overflow blockSize entry.name entry.file kind empty, if_neg empty]
    have data := summary.counts_addForkData kind (entry.file.fork kind)
    cases found : Fork.pieces? overflow (entry.file.fork kind) kind entry.file.fileId with
    | none =>
      refine (data.bind fun summary => summary.counts_add .damagedRecords 1).of_share
        fun counter => ?_
      simp only [CatalogFile.forkShare, empty, found]
      rfl
    | some pieces =>
      have few : pieces.records < UInt64.size := by
        obtain ⟨records, resolved, rfl⟩ := Fork.pieces?_eq_some.mp found
        exact Nat.lt_of_le_of_lt resolved.chained.length_le
          (Nat.lt_trans (entry.file.fork kind).totalBlocks.toNat_lt (by decide))
      refine (data.bind fun summary =>
        summary.counts_addPieces entry.name entry.file.fileId kind pieces few).of_share
        fun counter => ?_
      simp only [CatalogFile.forkShare, empty, found]
      rfl

/-- Counting a file adds its share, and ranks it and its forks that are in pieces. -/
theorem counts_addFile (key : CatalogKey) (file : CatalogFile) :
    summary.Counts (CatalogRecord.share overflow (.file file)) [⟨key.name, file⟩]
      (NamedFile.inPieces overflow ⟨key.name, file⟩)
      (addRecord overflow blockSize summary key (.file file) : ExceptT Error Id _).run := by
  unfold addRecord
  simp only [run_bind_direct]
  refine ((summary.counts_addFileRecord key.name file).bind fun data =>
    (data.counts_addFork overflow blockSize ⟨key.name, file⟩ .data).bind fun resource =>
      resource.counts_addFork overflow blockSize ⟨key.name, file⟩ .resource).of_share
    fun counter => ?_
  exact (Nat.add_assoc _ _ _).symm

end Adding

/-- Count a record if it can be read, and else that it is damaged. -/
def addReading (overflow : OverflowSource Id) (blockSize : Nat) (summary : VolumeSummary) :
    Reading → Except Error VolumeSummary
  | .ok (key, record) => (addRecord overflow blockSize summary key record : ExceptT Error Id _).run
  | .error _ => summary.add .damagedRecords 1

variable (overflow : OverflowSource Id) (blockSize : Nat)

/-- Counting what was read adds its share, and ranks the file, if it is one. -/
theorem counts_addReading (summary : VolumeSummary) (reading : Reading) :
    summary.Counts (reading.share overflow) reading.file?.toList
      (reading.file?.toList.flatMap (NamedFile.inPieces overflow))
      (addReading overflow blockSize summary reading) := by
  rcases reading with cause | ⟨key, folder | file | thread | thread⟩
  · exact summary.counts_add .damagedRecords 1
  · exact summary.counts_addFolder folder
  · dsimp only [Reading.file?, Option.toList_some]
    rw [List.flatMap_singleton]
    exact summary.counts_addFile overflow blockSize key file
  · exact summary.counts_add .threadRecords 1
  · exact summary.counts_add .threadRecords 1

/-- Counting one record after the other adds up their shares, and ranks all files and all forks in
pieces. The induction is on the records. -/
theorem counts_foldlM (readings : List Reading) (summary : VolumeSummary) :
    summary.Counts (Reading.total overflow readings) (Reading.files readings)
      (Reading.inPieces overflow readings)
      (readings.foldlM (addReading overflow blockSize) summary) := by
  induction readings generalizing summary with
  | nil => exact .nothing
  | cons reading later inductionHypothesis =>
    have counts := (counts_addReading overflow blockSize summary reading).bind inductionHypothesis
    rw [List.foldlM_cons]
    unfold Reading.inPieces Reading.files at counts ⊢
    rw [List.filterMap_cons]
    cases found : reading.file? with
    | none =>
      rw [found] at counts
      exact counts.of_share fun counter => by simp [Reading.total]
    | some entry =>
      rw [found] at counts
      dsimp only [Option.toList_some] at counts
      rw [List.flatMap_singleton] at counts
      exact counts.of_share fun counter => by simp [Reading.total]

end VolumeSummary

end HfsPlus
