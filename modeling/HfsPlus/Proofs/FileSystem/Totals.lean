import HfsPlus.FileSystem.Summary
import HfsPlus.Proofs.Fork.Loading
import Mathlib.Algebra.Group.Action.Defs
import Mathlib.Algebra.Order.BigOperators.Group.List
import Mathlib.Algebra.Order.Group.Nat
import Mathlib.Algebra.Ring.Nat

/-!
# What each record adds to a summary

A summary has two dozen counts, and each record of the catalog adds its own share to some of
them, `CatalogRecord.share`, in which only the forks of the record and their overflow records
have a part. A record that cannot be read adds one to the damaged records and nothing else. What
some records add to a count together is the sum of their shares.

Counts are 64-bit words, and shares natural numbers. Only what adds up the sizes of forks can
ever go beyond a word.
-/

namespace HfsPlus

namespace Counter

/-- As much of a single count. -/
def only (counted : Counter) (amount : Nat) (counter : Counter) : Nat :=
  if counter = counted then amount else 0

/-- One more of a single count. -/
def once (counted : Counter) : Counter → Nat := only counted 1

/-- Whether a count grows with the sizes of the forks. -/
def isSize : Counter → Bool
  | .ofForks _ .logicalBytes | .ofForks _ .allocatedBlocks | .ofForks _ .overflowRecords => true
  | _ => false

/-- What is added to the counts of the forks of one kind. -/
def ofKind (kind : ForkKind) (share : ForkCounter → Nat) : Counter → Nat
  | .ofForks other counter => if other = kind then share counter else 0
  | _ => 0

/-- What counts for the forks of one kind alone is settled by how much it counts for each of their
counts. -/
theorem eq_ofKind {kind : ForkKind} {share : Counter → Nat} {ofForks : ForkCounter → Nat}
    (own : ∀ counter, share (.ofForks kind counter) = ofForks counter)
    (others : ∀ counter, (∀ own, counter ≠ .ofForks kind own) → share counter = 0)
    (counter : Counter) : share counter = ofKind kind ofForks counter := by
  cases counter with
  | ofForks other counter =>
    by_cases same : other = kind
    · subst same
      rw [own, ofKind, if_pos rfl]
    · rw [others _ fun _ equal => same (Counter.ofForks.inj equal).1, ofKind, if_neg same]
  | _ => exact others _ fun _ => Counter.noConfusion

/-- It is bounded by what bounds the share of these forks. -/
theorem ofKind_le {kind : ForkKind} {share : ForkCounter → Nat} {counter : Counter} {bound : Nat}
    (bounded : ∀ part, counter = .ofForks kind part → share part ≤ bound) :
    ofKind kind share counter ≤ bound := by
  cases counter with
  | ofForks other part =>
    dsimp only [ofKind]
    split
    · rename_i same
      exact bounded part (same ▸ rfl)
    · exact Nat.zero_le bound
  | _ => exact Nat.zero_le bound

/-- One is no more than one. -/
theorem once_le (counted counter : Counter) : once counted counter ≤ 1 := by
  unfold once only
  split <;> decide

end Counter

/-- What a fork adds to the counts of its kind by its own data. -/
def ForkData.share (data : ForkData) : ForkCounter → Nat
  | .forks => 1
  | .logicalBytes => data.logicalSize.toNat
  | .allocatedBlocks => data.totalBlocks.toNat
  | .inlineExtents => data.extents.used.length
  | .fragmented | .overflowRecords => 0

/-- What a fork adds to them by its pieces. -/
def Fork.Pieces.share (pieces : Fork.Pieces) : ForkCounter → Nat
  | .fragmented => (decide (1 < pieces.extents)).toNat
  | .overflowRecords => pieces.records
  | _ => 0

namespace CatalogFile

/-- What a file adds to the counts as a whole. It is a link of one kind at most. -/
def ownShare (file : CatalogFile) : Counter → Nat
  | .files => 1
  | .hardLinks => file.isHardLink.toNat
  | .directoryHardLinks => (!file.isHardLink && file.isFolderLink).toNat
  | .symbolicLinks => (!file.isHardLink && !file.isFolderLink && file.isSymbolicLink).toNat
  | .aliases => file.isAlias.toNat
  | .emptyFiles => (file.dataFork.isEmpty && file.resourceFork.isEmpty).toNat
  | .invisible => file.isInvisible.toNat
  | _ => 0

/-- What a fork of a file adds to the counts, unless it is empty. One whose extents cannot all be
resolved is damaged, and adds nothing by its pieces. -/
def forkShare (overflow : OverflowSource Id) (file : CatalogFile) (kind : ForkKind)
    (counter : Counter) : Nat :=
  if (file.fork kind).isEmpty then 0
  else
    Counter.ofKind kind (file.fork kind).share counter +
      match Fork.pieces? overflow (file.fork kind) kind file.fileId with
      | some pieces => Counter.ofKind kind pieces.share counter
      | none => Counter.once .damagedRecords counter

/-- The forks of a file that are not empty and whose extents cannot all be resolved. -/
def unresolved (overflow : OverflowSource Id) (file : CatalogFile) : List ForkKind :=
  [ForkKind.data, .resource].filter fun kind =>
    ¬ (file.fork kind).isEmpty ∧ ¬ Fork.Resolvable overflow (file.fork kind) kind file.fileId

end CatalogFile

/-- What a folder adds to the counts, unless it is the root. -/
def CatalogFolder.share (folder : CatalogFolder) (counter : Counter) : Nat :=
  if folder.folderId = rootFolderId then 0
  else
    match counter with
    | .folders => 1
    | .emptyFolders => (folder.valence == 0).toNat
    | .invisible => folder.isInvisible.toNat
    | _ => 0

/-- What a record adds to the counts. -/
def CatalogRecord.share (overflow : OverflowSource Id) (record : CatalogRecord)
    (counter : Counter) : Nat :=
  match record with
  | .folder stored => stored.share counter
  | .file stored => stored.ownShare counter + stored.forkShare overflow .data counter +
      stored.forkShare overflow .resource counter
  | .folderThread _ | .fileThread _ => Counter.once .threadRecords counter

/-- A record as it can be read, or what keeps it from being read. -/
abbrev Catalog.Reading : Type := Except Error (CatalogKey × CatalogRecord)

namespace Catalog.Reading

/-- What a record adds to the counts, if it can be read. -/
def share (overflow : OverflowSource Id) (reading : Catalog.Reading) (counter : Counter) : Nat :=
  match reading with
  | .ok (_, record) => record.share overflow counter
  | .error _ => Counter.once .damagedRecords counter

/-- What some records add to the counts. -/
def total (overflow : OverflowSource Id) (readings : List Catalog.Reading) (counter : Counter) :
    Nat :=
  (readings.map fun reading => share overflow reading counter).sum

/-- The sizes of the forks add up to less than a word holds. -/
def SizesFit (overflow : OverflowSource Id) (readings : List Catalog.Reading) : Prop :=
  ∀ kind, total overflow readings (.ofForks kind .logicalBytes) < UInt64.size ∧
    total overflow readings (.ofForks kind .allocatedBlocks) < UInt64.size

/-- Whether a record cannot be read. -/
def isDamaged : Catalog.Reading → Bool
  | .ok _ => false
  | .error _ => true

/-- Whether a record is the root folder. -/
def isRoot : Catalog.Reading → Bool
  | .ok (_, .folder folder) => folder.folderId == rootFolderId
  | _ => false

/-- How many forks of a record are not empty and cannot be resolved. -/
def unresolvedForks (overflow : OverflowSource Id) : Catalog.Reading → Nat
  | .ok (_, .file file) => (file.unresolved overflow).length
  | _ => 0

end Catalog.Reading

namespace Catalog.Reading

section Shares

variable (overflow : OverflowSource Id)

/-- A fork adds nothing to what is counted of files and folders. -/
theorem forkShare_apart (file : CatalogFile) (kind : ForkKind) {counter : Counter}
    (apart : counter = .files ∨ counter = .folders ∨ counter = .threadRecords) :
    file.forkShare overflow kind counter = 0 := by
  unfold CatalogFile.forkShare
  cases (file.fork kind).isEmpty with
  | true => rfl
  | false =>
    cases Fork.pieces? overflow (file.fork kind) kind file.fileId with
    | some pieces => rcases apart with rfl | rfl | rfl <;> rfl
    | none => rcases apart with rfl | rfl | rfl <;> rfl

/-- A fork is damaged if it is not empty and its extents cannot all be resolved. -/
theorem forkShare_damagedRecords (file : CatalogFile) (kind : ForkKind) :
    file.forkShare overflow kind .damagedRecords =
      (decide (¬ (file.fork kind).isEmpty ∧
        ¬ Fork.Resolvable overflow (file.fork kind) kind file.fileId)).toNat := by
  unfold CatalogFile.forkShare
  simp only [← Fork.pieces?_isSome]
  cases (file.fork kind).isEmpty with
  | true => rfl
  | false => cases Fork.pieces? overflow (file.fork kind) kind file.fileId <;> rfl

/-- Every record is a file, a folder, the root folder or a thread, or it cannot be read. -/
theorem share_kinds (reading : Catalog.Reading) :
    share overflow reading .files + share overflow reading .folders +
      share overflow reading .threadRecords + (isRoot reading).toNat +
      (isDamaged reading).toNat = 1 := by
  rcases reading with cause | ⟨key, stored | stored | thread | thread⟩
  · simp [share, isRoot, isDamaged, Counter.once, Counter.only]
  · by_cases root : stored.folderId = rootFolderId <;>
      simp [share, CatalogRecord.share, CatalogFolder.share, isRoot, isDamaged, root]
  · simp [share, CatalogRecord.share, forkShare_apart, CatalogFile.ownShare, isRoot, isDamaged]
  · simp [share, CatalogRecord.share, Counter.once, Counter.only, isRoot, isDamaged]
  · simp [share, CatalogRecord.share, Counter.once, Counter.only, isRoot, isDamaged]

/-- A record that cannot be read is damaged, and so is each fork that cannot be resolved. -/
theorem share_damagedRecords (reading : Catalog.Reading) :
    share overflow reading .damagedRecords =
      (isDamaged reading).toNat + unresolvedForks overflow reading := by
  rcases reading with cause | ⟨key, stored | stored | thread | thread⟩
  · rfl
  · simp [share, CatalogRecord.share, CatalogFolder.share, isDamaged, unresolvedForks]
  · have length (unresolved : ForkKind → Bool) :
        ([ForkKind.data, .resource].filter unresolved).length =
          (unresolved .data).toNat + (unresolved .resource).toNat := by
      cases first : unresolved .data <;> cases second : unresolved .resource <;>
        simp [first, second]
    simp only [share, CatalogRecord.share, forkShare_damagedRecords, isDamaged, unresolvedForks,
      CatalogFile.unresolved, CatalogFile.ownShare, length, Bool.toNat_false, Nat.zero_add]
  · rfl
  · rfl

/-- What is not a size grows by nine at most with a fork. -/
theorem forkShare_le {counter : Counter} (small : counter.isSize = false) (file : CatalogFile)
    (kind : ForkKind) : file.forkShare overflow kind counter ≤ 9 := by
  have own : Counter.ofKind kind (file.fork kind).share counter ≤ 8 := by
    refine Counter.ofKind_le ?_
    rintro part rfl
    cases part with
    | inlineExtents => exact (file.fork kind).extents.length_used_le
    | logicalBytes => cases small
    | allocatedBlocks => cases small
    | _ => simp [ForkData.share]
  unfold CatalogFile.forkShare
  split
  · exact Nat.zero_le 9
  · cases Fork.pieces? overflow (file.fork kind) kind file.fileId with
    | none => exact Nat.add_le_add own (Counter.once_le _ _)
    | some pieces =>
      have further : Counter.ofKind kind pieces.share counter ≤ 1 := by
        refine Counter.ofKind_le ?_
        rintro part rfl
        cases part with
        | fragmented => exact Bool.toNat_le _
        | overflowRecords => cases small
        | _ => exact Nat.zero_le 1
      exact Nat.add_le_add own further

/-- What is not a size grows by less than twenty with a record. -/
theorem share_lt {counter : Counter} (small : counter.isSize = false)
    (reading : Catalog.Reading) : share overflow reading counter < 20 := by
  have once (counted : Counter) : Counter.once counted counter < 20 :=
    Nat.lt_of_le_of_lt (Counter.once_le counted counter) (by decide)
  rcases reading with cause | ⟨key, stored | stored | thread | thread⟩
  · exact once .damagedRecords
  · have folder : stored.share counter ≤ 1 := by
      unfold CatalogFolder.share
      split
      · exact Nat.zero_le 1
      · cases counter <;> simp [Bool.toNat_le]
    exact Nat.lt_of_le_of_lt folder (by decide)
  · have own : stored.ownShare counter ≤ 1 := by
      cases counter <;> simp [CatalogFile.ownShare, Bool.toNat_le]
    have data := forkShare_le overflow small stored .data
    have resource := forkShare_le overflow small stored .resource
    dsimp only [share, CatalogRecord.share]
    omega
  · exact once .threadRecords
  · exact once .threadRecords

/-- A fork has no more overflow records than blocks. -/
theorem forkShare_overflowRecords_le (file : CatalogFile) (kind other : ForkKind) :
    file.forkShare overflow kind (.ofForks other .overflowRecords) ≤
      file.forkShare overflow kind (.ofForks other .allocatedBlocks) := by
  unfold CatalogFile.forkShare
  split
  · exact Nat.le_refl 0
  · cases found : Fork.pieces? overflow (file.fork kind) kind file.fileId with
    | none =>
      dsimp only [Counter.ofKind, Counter.once, Counter.only]
      split <;> simp [ForkData.share]
    | some pieces =>
      obtain ⟨records, resolved, rfl⟩ := Fork.pieces?_eq_some.mp found
      have few := resolved.chained.length_le
      dsimp only [Counter.ofKind]
      split
      · simpa [ForkData.share, Fork.Pieces.share] using few
      · exact Nat.le_refl 0

/-- So there are no more in a record. -/
theorem share_overflowRecords_le (kind : ForkKind) (reading : Catalog.Reading) :
    share overflow reading (.ofForks kind .overflowRecords) ≤
      share overflow reading (.ofForks kind .allocatedBlocks) := by
  rcases reading with cause | ⟨key, stored | stored | thread | thread⟩
  · exact Nat.le_refl 0
  · exact Nat.le_refl _
  · have data := forkShare_overflowRecords_le overflow stored .data kind
    have resource := forkShare_overflowRecords_le overflow stored .resource kind
    exact Nat.add_le_add (Nat.add_le_add (Nat.le_refl 0) data) resource
  · exact Nat.le_refl 0
  · exact Nat.le_refl 0

end Shares

/-- One record more counts if the condition holds of it. -/
theorem countP_cons_toNat (condition : Catalog.Reading → Bool) (reading : Catalog.Reading)
    (later : List Catalog.Reading) :
    (reading :: later).countP condition = later.countP condition + (condition reading).toNat := by
  rw [List.countP_cons]
  cases condition reading <;> rfl

section Totals

variable (overflow : OverflowSource Id) (readings : List Catalog.Reading)

/-- No record is lost, and none is counted twice. -/
theorem total_kinds :
    total overflow readings .files + total overflow readings .folders +
      total overflow readings .threadRecords + readings.countP isRoot +
      readings.countP isDamaged = readings.length := by
  induction readings with
  | nil => rfl
  | cons reading later inductionHypothesis =>
    have one := share_kinds overflow reading
    simp only [total, List.map_cons, List.sum_cons, countP_cons_toNat, List.length_cons]
      at inductionHypothesis ⊢
    omega

/-- What is damaged are the records that cannot be read and the forks that cannot be resolved. -/
theorem total_damagedRecords :
    total overflow readings .damagedRecords =
      readings.countP isDamaged + (readings.map (unresolvedForks overflow)).sum := by
  induction readings with
  | nil => rfl
  | cons reading later inductionHypothesis =>
    have one := share_damagedRecords overflow reading
    simp only [total, List.map_cons, List.sum_cons, countP_cons_toNat] at inductionHypothesis ⊢
    omega

variable {readings}

/-- What is not a size adds up to less than a word holds, as there are not that many records. -/
theorem total_lt_of_small (few : readings.length ≤ 2 ^ 48) {counter : Counter}
    (small : counter.isSize = false) : total overflow readings counter < UInt64.size := by
  have bound : total overflow readings counter ≤
      (readings.map fun reading => share overflow reading counter).length • 20 := by
    refine List.sum_le_card_nsmul _ _ fun share member => ?_
    obtain ⟨reading, _, rfl⟩ := List.mem_map.mp member
    exact Nat.le_of_lt (share_lt overflow small reading)
  rw [List.length_map, smul_eq_mul] at bound
  have size : UInt64.size = 2 ^ 64 := rfl
  omega

/-- Nor do sizes that fit add up to more. The number of overflow records needs no bound of its own,
since the blocks bound it. -/
theorem total_lt (few : readings.length ≤ 2 ^ 48) (fit : SizesFit overflow readings)
    (counter : Counter) : total overflow readings counter < UInt64.size := by
  cases size : counter.isSize with
  | false => exact total_lt_of_small overflow few size
  | true =>
    cases counter with
    | ofForks kind counter =>
      cases counter with
      | logicalBytes => exact (fit kind).1
      | allocatedBlocks => exact (fit kind).2
      | overflowRecords =>
        refine Nat.lt_of_le_of_lt (List.sum_le_sum fun reading _ => ?_) (fit kind).2
        exact share_overflowRecords_le overflow kind reading
      | forks => cases size
      | fragmented => cases size
      | inlineExtents => cases size
    | _ => cases size

end Totals

end Catalog.Reading

end HfsPlus
