import HfsPlus.Proofs.Fork.Growth

/-!
# Forks as chains of records

Which overflow records a fork can ever fetch is settled by its own data and by the source:
the first is kept under the block behind the runs of the data, and each further one under
the block behind the runs before it, `Chained`. Every state of a fork is what `ofRecords`
makes of such a chain, whichever of its blocks were asked for so far.

Of two states on one chain the longer one maps what the shorter one maps, and where the
shorter one knows an answer, the longer one knows the same. A pursuit therefore ends with
the same answer wherever on the chain it starts.
-/

namespace HfsPlus

/-- The runs of a fork: those in its own data, and behind them those of overflow records. -/
def ForkData.runs (data : ForkData) (records : List ExtentRecord) : List ExtentDescriptor :=
  data.extents.used ++ records.flatMap ExtentRecord.used

/-- Without overflow records, the runs are those in the data of the fork. -/
@[simp] theorem ForkData.runs_nil (data : ForkData) : data.runs [] = data.extents.used := by
  simp [ForkData.runs]

/-- Further records have their runs behind those before them. -/
@[simp] theorem ForkData.runs_append (data : ForkData) (records more : List ExtentRecord) :
    data.runs (records ++ more) = data.runs records ++ more.flatMap ExtentRecord.used := by
  simp [ForkData.runs]

/-- Overflow records that continue the runs of a fork. Each is kept under the first block
that the runs before it do not map, which lies below a bound, and maps a block itself. -/
inductive Chained (overflow : OverflowSource Id) (data : ForkData) (kind : ForkKind)
    (fileId : UInt32) (bound : Nat) : List ExtentRecord → Prop
  | own : Chained overflow data kind fileId bound []
  | further {records : List ExtentRecord} {record : ExtentRecord} :
    Chained overflow data kind fileId bound records →
    blocksIn (data.runs records) < bound →
    (overflow fileId kind (UInt32.ofNat (blocksIn (data.runs records)))).run = .ok (some record) →
    record.used ≠ [] →
    Chained overflow data kind fileId bound (records ++ [record])

namespace Fork

/-- A fork that has fetched some overflow records. -/
def ofRecords (data : ForkData) (kind : ForkKind) (fileId : UInt32) (blockSize : Nat)
    (records : List ExtentRecord) : Fork :=
  { ofData data kind fileId blockSize with
    extents := ExtentList.laid 0 (data.runs records)
    overflowRecords := records.length }

section Records

variable (data : ForkData) (kind : ForkKind) (fileId : UInt32) (blockSize : Nat)
variable (records : List ExtentRecord)

/-- A fork of which only its own data is known has fetched nothing. -/
theorem ofData_eq : ofData data kind fileId blockSize = ofRecords data kind fileId blockSize [] := by
  have laid : ExtentList.addRecord [] data.extents = ExtentList.laid 0 (data.runs []) := by
    have added := ExtentList.addRecord_laid [] data.extents
    rwa [List.nil_append, ← ForkData.runs_nil] at added
  unfold ofRecords ofData
  rw [laid]
  rfl

/-- Fetching one record more appends it. -/
theorem withRecord_ofRecords (record : ExtentRecord) :
    (ofRecords data kind fileId blockSize records).withRecord record =
      ofRecords data kind fileId blockSize (records ++ [record]) := by
  have laid := ExtentList.addRecord_laid (data.runs records) record
  have runs : data.runs (records ++ [record]) = data.runs records ++ record.used := by simp
  unfold ofRecords withRecord
  simp only [laid, runs, List.length_append, List.length_singleton]

/-- How many blocks a fork has is up to its own data. -/
@[simp] theorem totalBlocks_ofRecords :
    (ofRecords data kind fileId blockSize records).totalBlocks = data.totalBlocks.toNat := rfl

/-- What is mapped are the blocks of all runs. -/
@[simp] theorem mappedBlocks_ofRecords :
    (ofRecords data kind fileId blockSize records).mappedBlocks = blocksIn (data.runs records) :=
  ExtentList.mappedBlocks_laid_zero (data.runs records)

/-- All blocks are known when there are as many in the runs. -/
theorem isFullyMapped_ofRecords :
    (ofRecords data kind fileId blockSize records).isFullyMapped = true ↔
      data.totalBlocks.toNat ≤ blocksIn (data.runs records) := by
  simp [isFullyMapped]

end Records

/-- A fork maps a block as its extents do. -/
theorem mapping?_eq_some {fork : Fork} {block : Nat} {mapping : Mapping} :
    fork.mapping? block = some mapping ↔
      fork.extents.lookup block = some (mapping.physicalBlock, mapping.blocksAvailable) := by
  unfold mapping?
  split
  · rename_i absent
    simp [absent]
  · rename_i physical available found
    refine Iff.trans ?_ (Eq.congr_left found).symm
    constructor
    · rintro ⟨⟩
      rfl
    · rintro ⟨⟩
      rfl

/-- It maps none that they do not hold. -/
theorem mapping?_eq_none {fork : Fork} {block : Nat} :
    fork.mapping? block = none ↔ fork.extents.lookup block = none := by
  unfold mapping?
  split
  · rename_i absent
    simp [absent]
  · rename_i physical available found
    simp [found]

section States

variable {overflow : OverflowSource Id} {data : ForkData} {kind : ForkKind} {fileId : UInt32}
variable {blockSize : Nat} {records : List ExtentRecord}

/-- A fork maps a block to its place in the runs. -/
theorem mapping?_ofRecords {block : Nat} {mapping : Mapping} :
    (ofRecords data kind fileId blockSize records).mapping? block = some mapping ↔
      placeIn (data.runs records) block =
        some (mapping.physicalBlock, mapping.blocksAvailable) := by
  rw [mapping?_eq_some, ← ExtentList.lookup_laid_zero]
  rfl

/-- A fork maps all blocks in the runs and no others. -/
theorem mapping?_ofRecords_none {block : Nat} :
    (ofRecords data kind fileId blockSize records).mapping? block = none ↔
      blocksIn (data.runs records) ≤ block := by
  rw [mapping?_eq_none, ← placeIn_eq_none, ← ExtentList.lookup_laid_zero]
  rfl

/-- The next record of a fork continues its chain. -/
theorem chained_nextRecord {record : ExtentRecord}
    (chained : Chained overflow data kind fileId data.totalBlocks.toNat records)
    (notFull : ¬ (ofRecords data kind fileId blockSize records).isFullyMapped = true)
    (next : nextRecord overflow (ofRecords data kind fileId blockSize records) =
      .ok (some record)) :
    Chained overflow data kind fileId data.totalBlocks.toNat (records ++ [record]) := by
  obtain ⟨_, found, used⟩ := (nextRecord_eq_some overflow).mp next
  rw [mappedBlocks_ofRecords] at found
  rw [isFullyMapped_ofRecords, Nat.not_le] at notFull
  exact .further chained notFull found used

/-- The record that continues the chain of a fork is its next. -/
theorem nextRecord_ofRecords {record : ExtentRecord}
    (inside : blocksIn (data.runs records) < data.totalBlocks.toNat)
    (found : (overflow fileId kind (UInt32.ofNat (blocksIn (data.runs records)))).run =
      .ok (some record)) (used : record.used ≠ []) :
    nextRecord overflow (ofRecords data kind fileId blockSize records) = .ok (some record) := by
  refine (nextRecord_eq_some overflow).mpr ⟨?_, ?_, used⟩
  · rw [mappedBlocks_ofRecords]
    exact Nat.lt_trans inside data.totalBlocks.toNat_lt_size
  · rw [mappedBlocks_ofRecords]
    exact found

section Pursuit

variable {α : Type} {known : Fork → Option (Except Error α)}
variable {exhausted : Fork → Except Error α}

/-- How a pursuit ends, by the fork that it leaves. -/
inductive Ended (overflow : OverflowSource Id) (known : Fork → Option (Except Error α))
    (exhausted : Fork → Except Error α) (last : Fork) : Except Error α → Prop
  | answered {answer : Except Error α} : known last = some answer →
    Ended overflow known exhausted last answer
  | full : known last = none → last.isFullyMapped = true →
    Ended overflow known exhausted last (exhausted last)
  | refused {cause : Error} : known last = none → nextRecord overflow last = .error cause →
    Ended overflow known exhausted last (.error cause)
  | spent : known last = none → nextRecord overflow last = .ok none →
    Ended overflow known exhausted last (exhausted last)

/-- A pursuit leaves a fork further on in its chain, and ends as that fork has it. The
induction follows the pursuit. -/
theorem pursue_ends {fork : Fork} (state : fork = ofRecords data kind fileId blockSize records)
    (chained : Chained overflow data kind fileId data.totalBlocks.toNat records) :
    ∃ more, Chained overflow data kind fileId data.totalBlocks.toNat (records ++ more) ∧
      (pursue overflow known exhausted fork).2 =
        ofRecords data kind fileId blockSize (records ++ more) ∧
      Ended overflow known exhausted (pursue overflow known exhausted fork).2
        (pursue overflow known exhausted fork).1 := by
  have stays : Chained overflow data kind fileId data.totalBlocks.toNat (records ++ []) := by
    rwa [List.append_nil]
  have same : fork = ofRecords data kind fileId blockSize (records ++ []) := by
    rwa [List.append_nil]
  fun_induction pursue overflow known exhausted fork generalizing records with
  | case1 fork answer answered => exact ⟨[], stays, same, .answered answered⟩
  | case2 fork unanswered full => exact ⟨[], stays, same, .full unanswered full⟩
  | case3 fork unanswered notFull cause next => exact ⟨[], stays, same, .refused unanswered next⟩
  | case4 fork unanswered notFull next => exact ⟨[], stays, same, .spent unanswered next⟩
  | case5 fork unanswered notFull record next inductionHypothesis =>
    subst state
    have further := chained_nextRecord chained notFull next
    have grown := withRecord_ofRecords data kind fileId blockSize records record
    obtain ⟨more, chainedLast, left, ended⟩ :=
      inductionHypothesis grown further (by rwa [List.append_nil]) (by rwa [List.append_nil])
    rw [List.append_assoc] at chainedLast left
    exact ⟨_, chainedLast, left, ended⟩

/-- Whatever a fork knows before it fetches a record, it knows afterwards. -/
def Lasting (data : ForkData) (kind : ForkKind) (fileId : UInt32) (blockSize : Nat)
    (known : Fork → Option (Except Error α)) : Prop :=
  ∀ records record answer, blocksIn (data.runs records) < data.totalBlocks.toNat →
    known (ofRecords data kind fileId blockSize records) = some answer →
    known (ofRecords data kind fileId blockSize (records ++ [record])) = some answer

/-- A pursuit has the same answer wherever on a chain it starts, if what is known lasts. The
induction is on the chain: a fork that knows the answer before a record still does with the
record, and a fork that does not know it fetches the very record that the chain has next. -/
theorem pursue_chained (lasting : Lasting data kind fileId blockSize known)
    (chained : Chained overflow data kind fileId data.totalBlocks.toNat records) :
    (pursue overflow known exhausted (ofRecords data kind fileId blockSize records)).1 =
      (pursue overflow known exhausted (ofData data kind fileId blockSize)).1 := by
  induction chained with
  | own => rw [ofData_eq]
  | @further records record _ inside found used inductionHypothesis =>
    rw [← inductionHypothesis]
    cases answered : known (ofRecords data kind fileId blockSize records) with
    | some answer =>
      have still := lasting records record answer inside answered
      rw [pursue_known overflow answered, pursue_known overflow still]
    | none =>
      have notFull : ¬ (ofRecords data kind fileId blockSize records).isFullyMapped = true := by
        rw [isFullyMapped_ofRecords, Nat.not_le]
        exact inside
      have next : nextRecord overflow (ofRecords data kind fileId blockSize records) =
          .ok (some record) := nextRecord_ofRecords inside found used
      rw [pursue_withRecord overflow answered notFull next, withRecord_ofRecords]

end Pursuit

/-- A fork that maps a block goes on mapping it to the same place. -/
theorem place?_lasting (block : Nat) : Lasting data kind fileId blockSize (place? block) := by
  intro records record answer _ answered
  unfold place? at answered ⊢
  rw [totalBlocks_ofRecords] at answered ⊢
  by_cases outside : data.totalBlocks.toNat ≤ block
  · rw [if_pos outside] at answered ⊢
    exact answered
  · rw [if_neg outside] at answered ⊢
    obtain ⟨mapping, mapped, same⟩ := Option.map_eq_some_iff.mp answered
    have placed := placeIn_append (mapping?_ofRecords.mp mapped) record.used
    have stillMapped : (ofRecords data kind fileId blockSize (records ++ [record])).mapping?
        block = some mapping := by
      rw [mapping?_ofRecords]
      simpa using placed
    rw [stillMapped]
    exact congrArg some same

/-- A fork fetches no record once it knows how many there are. -/
theorem loaded?_lasting : Lasting data kind fileId blockSize loaded? := by
  intro records record answer inside answered
  have notFull : ¬ (ofRecords data kind fileId blockSize records).isFullyMapped = true := by
    rw [isFullyMapped_ofRecords, Nat.not_le]
    exact inside
  simp [loaded?, notFull] at answered

end States

section Sample

/-! A fork of three blocks, of which the last is mapped by an overflow record, on a volume of
four blocks. -/

/-- Eight runs of which one is in use. -/
def sampleRun (startBlock blockCount : UInt32) : ExtentRecord :=
  .ofFn fun place => if place = 0 then ⟨startBlock, blockCount⟩ else ⟨0, 0⟩

/-- The data of the fork. -/
def sampleData : ForkData where
  logicalSize := 11
  clumpSize := 0
  totalBlocks := 3
  extents := sampleRun 2 2

/-- A source that keeps the overflow record. -/
def sampleOverflow : OverflowSource Id := fun _ _ block =>
  return if block = 2 then some (sampleRun 1 1) else none

/-- The volume. -/
def sampleWindow : Window :=
  (Volume.ofImage ⟨#[0, 1, 2, 3, 4, 5, 6, 7, 8, 9, 10, 11, 12, 13, 14, 15]⟩).window

end Sample

end Fork

end HfsPlus
