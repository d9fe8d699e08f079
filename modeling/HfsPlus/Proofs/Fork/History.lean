import HfsPlus.Proofs.Fork.Answers
import HfsPlus.Proofs.Fork.Chain

/-!
# What a fork has fetched goes unnoticed

Requests that are put to a fork one after the other leave it with more or fewer overflow
records, depending on the blocks that were asked for and on where the source failed. All
these states lie on one chain of records, `FurtherOn`, and a request has the same answer in
each of them: a fork that has fetched a lot answers as one that has fetched nothing. What
was mapped at some time stays mapped to the same place.
-/

namespace HfsPlus

namespace Fork

/-- A fork that has fetched some records, and perhaps those that follow them in the chain. -/
def FurtherOn (overflow : OverflowSource Id) (data : ForkData) (kind : ForkKind)
    (fileId : UInt32) (blockSize : Nat) (records : List ExtentRecord) (fork : Fork) : Prop :=
  ∃ more, Chained overflow data kind fileId data.totalBlocks.toNat (records ++ more) ∧
    fork = ofRecords data kind fileId blockSize (records ++ more)

/-- Where a fork says that a block lies. -/
def locate (overflow : OverflowSource Id) (fork : Fork) (block : Nat) : Except Error Mapping :=
  match ((resolve overflow block).run.run fork).1 with
  | .ok (some mapping) => .ok mapping
  | .ok none => .error (fork.unmapped block)
  | .error cause => .error cause

/-- Where a fork that is read finds a block, fetching records as needed. -/
def locating (overflow : OverflowSource Id) (fork : Fork) (block : Nat) :
    ExceptT Error (StateT Fork Id) Mapping := do
  match ← resolve overflow block with
  | some mapping => return mapping
  | none => throw (fork.unmapped block)

section States

variable {overflow : OverflowSource Id} {data : ForkData} {kind : ForkKind} {fileId : UInt32}
variable {blockSize : Nat} {records : List ExtentRecord} {fork : Fork}

/-- A fork of which only its own data is known is at the start of its chain. -/
theorem furtherOn_ofData :
    FurtherOn overflow data kind fileId blockSize [] (ofData data kind fileId blockSize) :=
  ⟨[], .own, ofData_eq data kind fileId blockSize⟩

section Pursuit

variable {α : Type} {known : Fork → Option (Except Error α)} {exhausted : Fork → Except Error α}
variable (further : FurtherOn overflow data kind fileId blockSize records fork)
include further

/-- A pursuit leaves a fork that is further on. -/
theorem pursue_left :
    FurtherOn overflow data kind fileId blockSize records
      (pursue overflow known exhausted fork).2 := by
  obtain ⟨more, chained, state⟩ := further
  obtain ⟨evenMore, chainedLast, left, _⟩ : ∃ evenMore, _ ∧
      (pursue overflow known exhausted fork).2 = _ ∧ _ := pursue_ends state chained
  rw [List.append_assoc] at chainedLast left
  exact ⟨more ++ evenMore, chainedLast, left⟩

/-- A pursuit has the answer that it has from the start of the chain, if what is known
lasts. -/
theorem pursue_answer (lasting : Lasting data kind fileId blockSize known) :
    (pursue overflow known exhausted fork).1 =
      (pursue overflow known exhausted (ofData data kind fileId blockSize)).1 := by
  obtain ⟨more, chained, rfl⟩ := further
  exact pursue_chained lasting chained

end Pursuit

variable (further : FurtherOn overflow data kind fileId blockSize records fork)
include further

/-- A block is looked up with the same result from anywhere on the chain. -/
theorem resolve_furtherOn (block : Nat) :
    ((resolve overflow block).run.run fork).1 =
        ((resolve overflow block).run.run (ofData data kind fileId blockSize)).1 ∧
      FurtherOn overflow data kind fileId blockSize records
        ((resolve overflow block).run.run fork).2 := by
  rw [resolve_run, resolve_run]
  exact ⟨pursue_answer further (place?_lasting block), pursue_left further⟩

/-- Loading comes to the same from anywhere on the chain. -/
theorem loadAll_furtherOn :
    ((loadAll overflow).run.run fork).1 =
        ((loadAll overflow).run.run (ofData data kind fileId blockSize)).1 ∧
      FurtherOn overflow data kind fileId blockSize records
        ((loadAll overflow).run.run fork).2 := by
  rw [loadAll_run, loadAll_run]
  exact ⟨pursue_answer further loaded?_lasting, pursue_left further⟩

/-- Wherever on the chain a read starts, it locates each block as from the start, so what it
delivers is what reading through these places delivers. -/
theorem readRange_furtherOn (window : Window) (offset wanted : Nat) :
    ((readRange window overflow offset wanted).run.run fork).1 =
        (readStream window blockSize data.logicalSize.toNat
          (fun block => liftM (locate overflow (ofData data kind fileId blockSize) block))
          offset wanted : ExceptT Error Id Bytes).run ∧
      FurtherOn overflow data kind fileId blockSize records
        ((readRange window overflow offset wanted).run.run fork).2 := by
  obtain ⟨more, chained, rfl⟩ := id further
  let agreement := Agreement.ofInvariant (FurtherOn overflow data kind fileId blockSize records)
  let start := ofData data kind fileId blockSize
  have alike (block : Nat) : (agreement.exceptT Error).holds Eq
      (locating overflow start block) (liftM (locate overflow start block)) := by
    intro state here
    obtain ⟨same, after⟩ := resolve_furtherOn here block
    rw [locating, run_bind]
    unfold locate
    rw [← same]
    generalize (resolve overflow block).run.run state = ran at after
    rcases ran with ⟨cause | _ | mapping, last⟩
    · exact ⟨rfl, after⟩
    · exact ⟨rfl, after⟩
    · exact ⟨rfl, after⟩
  obtain ⟨outcomes, after⟩ := agreement.readStream window blockSize data.logicalSize.toNat alike
    offset wanted _ further
  exact ⟨Agreement.outcomes_eq outcomes, after⟩

end States

/-- What can be asked of a fork. -/
inductive Request where
  | resolve (block : Nat)
  | loadAll
  | readRange (window : Window) (offset wanted : Nat)

/-- What a fork has to say to a request. -/
inductive Reply where
  | place (outcome : Except Error (Option Mapping))
  | loaded (outcome : Except Error Nat)
  | bytes (outcome : Except Error Bytes)

section Replies

variable {m : Type → Type} [Monad m] [Logging m]

/-- Reply to a request. -/
def reply (overflow : OverflowSource m) : Request → StateT Fork m Reply
  | .resolve block => return .place (← (resolve overflow block).run)
  | .loadAll => return .loaded (← (loadAll overflow).run)
  | .readRange window offset wanted =>
    return .bytes (← (readRange window overflow offset wanted).run)

/-- The replies to requests that are put one after the other. -/
def replies (overflow : OverflowSource m) : List Request → StateT Fork m (List Reply)
  | [] => return []
  | request :: later => do
    let first ← reply overflow request
    return first :: (← replies overflow later)

end Replies

section Sessions

variable {overflow : OverflowSource Id} {data : ForkData} {kind : ForkKind} {fileId : UInt32}
variable {blockSize : Nat} {records : List ExtentRecord} {fork : Fork}

/-- A request gets the reply that it gets at the start of the chain, and leaves the fork
further on. -/
theorem reply_furtherOn (further : FurtherOn overflow data kind fileId blockSize records fork)
    (request : Request) :
    ((reply overflow request).run fork).1 =
        ((reply overflow request).run (ofData data kind fileId blockSize)).1 ∧
      FurtherOn overflow data kind fileId blockSize records
        ((reply overflow request).run fork).2 := by
  cases request with
  | resolve block =>
    obtain ⟨same, after⟩ := resolve_furtherOn further block
    exact ⟨congrArg Reply.place same, after⟩
  | loadAll =>
    obtain ⟨same, after⟩ := loadAll_furtherOn further
    exact ⟨congrArg Reply.loaded same, after⟩
  | readRange window offset wanted =>
    obtain ⟨here, after⟩ := readRange_furtherOn further window offset wanted
    obtain ⟨fresh, _⟩ := readRange_furtherOn (furtherOn_ofData) window offset wanted
    exact ⟨congrArg Reply.bytes (here.trans fresh.symm), after⟩

/-- So does each of several requests, of which each leaves the fork to the next. -/
theorem replies_furtherOn (further : FurtherOn overflow data kind fileId blockSize records fork)
    (requests : List Request) :
    ((replies overflow requests).run fork).1 = requests.map (fun request =>
        ((reply overflow request).run (ofData data kind fileId blockSize)).1) ∧
      FurtherOn overflow data kind fileId blockSize records
        ((replies overflow requests).run fork).2 := by
  induction requests generalizing fork with
  | nil => exact ⟨rfl, further⟩
  | cons request later inductionHypothesis =>
    obtain ⟨same, next⟩ := reply_furtherOn further request
    obtain ⟨sameLater, last⟩ := inductionHypothesis next
    refine ⟨?_, last⟩
    rw [List.map_cons, ← same, ← sameLater]
    rfl

/-- Requests that follow others go on with the fork that those leave. -/
theorem replies_append (earlier later : List Request) (fork : Fork) :
    ((replies overflow (earlier ++ later)).run fork).2 =
      ((replies overflow later).run ((replies overflow earlier).run fork).2).2 := by
  induction earlier generalizing fork with
  | nil => rfl
  | cons request earlier inductionHypothesis =>
    exact inductionHypothesis ((reply overflow request).run fork).2

end Sessions

/-- **Fetching goes unnoticed.** Whatever was asked of a fork before, and whether it
succeeded or not, each request gets the reply that it would get as the first. All that
changes are the extents: they are the runs of the fork's own data and of the overflow
records fetched so far, laid one after the other without gap or overlap, and the fork
counts these records. Further requests add whole records behind them, so that each block
that was mapped stays mapped to the same place. -/
theorem fetching_unnoticed (overflow : OverflowSource Id) (data : ForkData) (kind : ForkKind)
    (fileId : UInt32) (blockSize : Nat) (earlier later : List Request) :
    let start := ofData data kind fileId blockSize
    let fork := ((replies overflow earlier).run start).2
    let grown := ((replies overflow (earlier ++ later)).run start).2
    ((replies overflow earlier).run start).1 =
        earlier.map (fun request => ((reply overflow request).run start).1) ∧
      (∃ records more : List ExtentRecord,
        Chained overflow data kind fileId data.totalBlocks.toNat (records ++ more) ∧
        fork.extents = ExtentList.laid 0 (data.runs records) ∧
        fork.overflowRecords = records.length ∧
        grown.extents = fork.extents ++
          ExtentList.laid fork.mappedBlocks (more.flatMap ExtentRecord.used) ∧
        grown.overflowRecords = (records ++ more).length) ∧
      fork.extents.isContiguous = true ∧
      (∀ block, block < fork.mappedBlocks → ∃! place : Nat, ∃ extent : Extent,
        fork.extents[place]? = some extent ∧ extent.contains block = true) ∧
      (∀ block, (fork.extents.lookup block).isSome = true ↔ block < fork.mappedBlocks) ∧
      (∀ block place, fork.extents.lookup block = some place →
        grown.extents.lookup block = some place) := by
  intro start fork grown
  obtain ⟨same, records, chained, state⟩ := replies_furtherOn furtherOn_ofData earlier
  have here : fork = ofRecords data kind fileId blockSize records := state
  have further : FurtherOn overflow data kind fileId blockSize records fork :=
    ⟨[], by rwa [List.append_nil], by rwa [List.append_nil]⟩
  obtain ⟨_, more, chainedLater, stateLater⟩ := replies_furtherOn further later
  have there : grown = ofRecords data kind fileId blockSize (records ++ more) :=
    (replies_append earlier later start).trans stateLater
  have extents : fork.extents = ExtentList.laid 0 (data.runs records) := by rw [here]; rfl
  have mapped : fork.mappedBlocks = blocksIn (data.runs records) := by
    rw [here, mappedBlocks_ofRecords]
  have grownExtents : grown.extents = fork.extents ++
      ExtentList.laid fork.mappedBlocks (more.flatMap ExtentRecord.used) := by
    have laid := ExtentList.laid_append 0 (data.runs records) (more.flatMap ExtentRecord.used)
    rw [Nat.zero_add, ← ForkData.runs_append, ← extents, ← mapped] at laid
    rw [← laid, there]
    rfl
  refine ⟨same, ⟨records, more, chainedLater, extents, by rw [here]; rfl, grownExtents,
    by rw [there]; rfl⟩, ?_, ?_, ?_, ?_⟩
  · rw [extents]
    exact ExtentList.contiguousFrom_laid 0 (data.runs records)
  · intro block inside
    rw [extents]
    exact ExtentList.existsUnique_laid (Nat.zero_le block) (by omega)
  · intro block
    rw [extents, ExtentList.lookup_laid_zero, mapped]
    exact placeIn_isSome (data.runs records) block
  · intro block place found
    rw [extents, ExtentList.lookup_laid_zero] at found
    have still := placeIn_append found (more.flatMap ExtentRecord.used)
    rw [← ForkData.runs_append, ← ExtentList.lookup_laid_zero] at still
    rw [there]
    exact still

end Fork

end HfsPlus
