import HfsPlus.Proofs.Fork.Places

/-!
# Forks of which everything is known

All blocks of a fork can come to be known if the runs of a chain of its records map them all,
`Resolved`. There is at most one such chain. Loading a fork succeeds exactly when there is one,
and then leaves the fork with this chain: what loading finds, `pieces?`, is how many records the
chain has and how many runs they make with the fork's own.
-/

namespace HfsPlus

/-- Laying runs makes one extent of each. -/
@[simp] theorem ExtentList.length_laid (start : Nat) (runs : List ExtentDescriptor) :
    (laid start runs).length = runs.length := by
  induction runs generalizing start with
  | nil => rfl
  | cons run later inductionHypothesis => simp [laid, inductionHypothesis]

section Chains

variable {overflow : OverflowSource Id} {data : ForkData} {kind : ForkKind} {fileId : UInt32}
variable {bound : Nat} {records : List ExtentRecord}

/-- The records of a chain map a block each. -/
theorem Chained.length_le_blocksIn (chained : Chained overflow data kind fileId bound records) :
    records.length ≤ blocksIn (data.runs records) := by
  induction chained with
  | own => exact Nat.zero_le _
  | @further records record _ _ _ used inductionHypothesis =>
    have positive := ExtentRecord.blocksIn_used_pos used
    simp only [List.length_append, List.length_singleton, ForkData.runs_append, blocksIn_append,
      List.flatMap_singleton]
    omega

/-- A chain has no more records than its bound allows blocks. -/
theorem Chained.length_le (chained : Chained overflow data kind fileId bound records) :
    records.length ≤ bound := by
  cases chained with
  | own => exact Nat.zero_le _
  | further earlier inside _ _ =>
    have mapped := earlier.length_le_blocksIn
    simp only [List.length_append, List.length_singleton]
    omega

end Chains

namespace Fork

/-- The records that make all blocks of a fork known. -/
structure Resolved (overflow : OverflowSource Id) (data : ForkData) (kind : ForkKind)
    (fileId : UInt32) (records : List ExtentRecord) : Prop where
  chained : Chained overflow data kind fileId data.totalBlocks.toNat records
  covers : data.totalBlocks.toNat ≤ blocksIn (data.runs records)

/-- What is counted of a fork once it is loaded. -/
structure Pieces where
  /-- The overflow records of the fork. -/
  records : Nat
  /-- The runs in them and in the fork's own data. -/
  extents : Nat
  deriving DecidableEq, Repr

section Loading

variable (overflow : OverflowSource Id) (data : ForkData) (kind : ForkKind) (fileId : UInt32)

/-- What loading a fork finds, if it succeeds. -/
def pieces? : Option Pieces :=
  match (loadAll overflow).run.run (ofData data kind fileId 0) with
  | (.ok records, fork) => some ⟨records, fork.extents.length⟩
  | (.error _, _) => none

/-- All extents of a fork can be resolved. -/
def Resolvable : Prop := ∃ records, Resolved overflow data kind fileId records

variable {overflow data kind fileId}

/-- A fork that is loaded has the records that make all its blocks known. -/
theorem resolved_of_loadAll {blockSize count : Nat} {fork : Fork}
    (loaded : (loadAll overflow).run.run (ofData data kind fileId blockSize) =
      (.ok count, fork)) :
    ∃ records, Resolved overflow data kind fileId records ∧ records.length = count ∧
      fork = ofRecords data kind fileId blockSize records := by
  rw [loadAll_run] at loaded
  obtain ⟨records, chained, left, ended⟩ : ∃ records, _ ∧
      (pursue overflow loaded? _ _).2 = _ ∧ Ended _ _ _ _ (pursue overflow loaded? _ _).1 :=
    pursue_ends (ofData_eq data kind fileId blockSize) .own
  rw [loaded] at left ended
  rw [List.nil_append] at chained left
  dsimp only at left ended
  cases ended with
  | answered answered =>
    subst left
    unfold loaded? at answered
    split at answered
    · rename_i full
      obtain ⟨⟩ := answered
      exact ⟨records, ⟨chained, (isFullyMapped_ofRecords ..).mp full⟩, rfl, rfl⟩
    · cases answered

/-- Where there are such records, loading fetches as many. -/
theorem Resolved.loadAll {records : List ExtentRecord}
    (resolved : Resolved overflow data kind fileId records) (blockSize : Nat) :
    ((loadAll overflow).run.run (ofData data kind fileId blockSize)).1 = .ok records.length := by
  have further : FurtherOn overflow data kind fileId blockSize []
      (ofRecords data kind fileId blockSize records) := ⟨records, resolved.chained, rfl⟩
  have full := (isFullyMapped_ofRecords data kind fileId blockSize records).mpr resolved.covers
  have known : loaded? (ofRecords data kind fileId blockSize records) =
      some (.ok records.length) := if_pos full
  rw [← (loadAll_furtherOn further).1, loadAll_run, pursue_known overflow known]

/-- They are the only ones. -/
theorem Resolved.unique {records others : List ExtentRecord}
    (resolved : Resolved overflow data kind fileId records)
    (also : Resolved overflow data kind fileId others) : records = others := by
  have length : records.length = others.length :=
    Except.ok.inj ((resolved.loadAll 0).symm.trans (also.loadAll 0))
  rcases resolved.chained.comparable also.chained with begins | begins
  · exact begins.eq_of_length length
  · exact (begins.eq_of_length length.symm).symm

/-- Loading succeeds exactly where there are such records, and leaves the fork with them. -/
theorem loadAll_eq_ok {blockSize count : Nat} {fork : Fork} :
    (loadAll overflow).run.run (ofData data kind fileId blockSize) = (.ok count, fork) ↔
      ∃ records, Resolved overflow data kind fileId records ∧ records.length = count ∧
        fork = ofRecords data kind fileId blockSize records := by
  refine ⟨resolved_of_loadAll, ?_⟩
  rintro ⟨records, resolved, rfl, rfl⟩
  have counted := resolved.loadAll blockSize
  generalize loaded : (loadAll overflow).run.run (ofData data kind fileId blockSize) = result
    at counted ⊢
  obtain ⟨outcome, fork⟩ := result
  obtain rfl : outcome = _ := counted
  obtain ⟨others, also, _, rfl⟩ := resolved_of_loadAll loaded
  rw [resolved.unique also]

/-- Loading finds the number of records and of runs. -/
theorem pieces?_eq_some {pieces : Pieces} :
    pieces? overflow data kind fileId = some pieces ↔
      ∃ records, Resolved overflow data kind fileId records ∧
        pieces = ⟨records.length, (data.runs records).length⟩ := by
  unfold pieces?
  constructor
  · intro found
    split at found
    · rename_i count fork loaded
      obtain ⟨records, resolved, rfl, rfl⟩ := loadAll_eq_ok.mp loaded
      obtain ⟨⟩ := found
      exact ⟨records, resolved, by simp [ofRecords]⟩
    · cases found
  · rintro ⟨records, resolved, rfl⟩
    rw [loadAll_eq_ok.mpr ⟨records, resolved, rfl, rfl⟩]
    simp [ofRecords]

/-- It finds something exactly where all extents can be resolved. -/
theorem pieces?_isSome :
    (pieces? overflow data kind fileId).isSome ↔ Resolvable overflow data kind fileId := by
  rw [Option.isSome_iff_exists]
  simp only [pieces?_eq_some]
  constructor
  · rintro ⟨_, records, resolved, _⟩
    exact ⟨records, resolved⟩
  · rintro ⟨records, resolved⟩
    exact ⟨_, records, resolved, rfl⟩

/-- Whether they can is settled by loading. -/
instance decidableResolvable : Decidable (Resolvable overflow data kind fileId) :=
  decidable_of_iff _ pieces?_isSome

/-- In whatever blocks the fork is stored, loading comes to its pieces. -/
theorem loadAll_pieces? (blockSize : Nat) :
    pieces? overflow data kind fileId =
      match (loadAll overflow).run.run (ofData data kind fileId blockSize) with
      | (.ok records, fork) => some ⟨records, fork.extents.length⟩
      | (.error _, _) => none := by
  split
  · rename_i count fork loaded
    obtain ⟨records, resolved, rfl, rfl⟩ := loadAll_eq_ok.mp loaded
    exact pieces?_eq_some.mpr ⟨records, resolved, by simp [ofRecords]⟩
  · rename_i cause fork loaded
    by_contra found
    obtain ⟨pieces, found⟩ := Option.ne_none_iff_exists'.mp found
    obtain ⟨records, resolved, _⟩ := pieces?_eq_some.mp found
    have counted := resolved.loadAll blockSize
    rw [loaded] at counted
    cases counted

end Loading

end Fork

end HfsPlus
