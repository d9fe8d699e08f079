import HfsPlus.Proofs.Fork.History

/-!
# Streams of known forks read as forks do

A fork can be read in two ways. `readRange` fetches records while it reads, and tests for
each block whether it belongs to the fork before it looks it up. A `ForkStream` has fetched
all records before, looks the block up first and tests it afterwards. Both locate every
block alike, those that no record maps and those that are mapped past the end of the fork
among them, so both deliver the same.
-/

namespace HfsPlus

namespace Fork

variable {overflow : OverflowSource Id} {data : ForkData} {kind : ForkKind} {fileId : UInt32}
variable {blockSize : Nat} {records : List ExtentRecord}

/-- Where a fork locates a block, as far as its known extents say. -/
def located (fork : Fork) (block : Nat) : Except Error Mapping :=
  match fork.mapping? block with
  | some mapping => if block < fork.totalBlocks then .ok mapping else .error (fork.unmapped block)
  | none => .error (fork.unmapped block)

/-- Reading through the known extents locates blocks by them. -/
theorem readMapped_eq (fork : Fork) (window : Window) (offset wanted : Nat) :
    (fork.readMapped window offset wanted : ExceptT Error Id Bytes) =
      readStream window fork.blockSize fork.logicalSize (fun block => liftM (located fork block))
        offset wanted := by
  unfold readMapped
  refine congrArg (fun locate =>
    readStream window fork.blockSize fork.logicalSize locate offset wanted) (funext fun block => ?_)
  unfold located
  cases fork.mapping? block with
  | none => rfl
  | some mapping =>
    dsimp only
    split <;> rfl

/-- A fork of which all blocks are known locates each block by its extents. -/
theorem locate_full {fork : Fork} (full : fork.isFullyMapped = true) (block : Nat) :
    locate overflow fork block = located fork block := by
  unfold locate located
  rw [resolve_run]
  by_cases inside : block < fork.totalBlocks
  · cases mapped : fork.mapping? block with
    | some mapping =>
      have answered : place? block fork = some (.ok (some mapping)) := by
        simp [place?, Nat.not_le.mpr inside, mapped]
      simp only [pursue_known overflow answered, inside, ↓reduceIte]
    | none =>
      have unanswered : place? block fork = none := by
        simp [place?, Nat.not_le.mpr inside, mapped]
      simp only [pursue_full overflow unanswered full]
  · have answered : place? block fork = some (.ok none) := by
      simp [place?, Nat.not_lt.mp inside]
    simp only [pursue_known overflow answered, inside, ↓reduceIte]
    cases fork.mapping? block <;> rfl

/-- A fork further on in its chain locates each block as at the start. -/
theorem locate_furtherOn {fork : Fork}
    (further : FurtherOn overflow data kind fileId blockSize records fork) (block : Nat) :
    locate overflow fork block = locate overflow (ofData data kind fileId blockSize) block := by
  have same := (resolve_furtherOn further block).1
  obtain ⟨more, _, rfl⟩ := further
  unfold locate
  rw [same]
  rfl

/-- A fork that was made ready is further on in its chain, and all its blocks are known. A loading
that comes to any other end is an error, and no stream is made. -/
theorem full_of_ofFork {window : Window} {stream : ForkStream}
    (opened : (ForkStream.ofFork window (ofData data kind fileId blockSize) overflow).run =
      .ok stream) :
    stream.window = window ∧ stream.fork.isFullyMapped = true ∧
      FurtherOn overflow data kind fileId blockSize [] stream.fork := by
  let start := ofData data kind fileId blockSize
  let exhausted (fork : Fork) : Except Error Nat := .error (fork.unmapped fork.mappedBlocks)
  have ran : (ForkStream.ofFork window start overflow).run =
      Except.map (fun _ => ⟨window, ((loadAll overflow).run.run start).2⟩)
        ((loadAll overflow).run.run start).1 := rfl
  rw [ran, loadAll_run] at opened
  obtain ⟨more, chained, left, ended⟩ : ∃ more, _ ∧
      (pursue overflow loaded? exhausted start).2 = _ ∧ _ :=
    pursue_ends (ofData_eq data kind fileId blockSize) .own
  generalize pursue overflow loaded? exhausted start = pursued at opened left ended
  obtain ⟨outcome, last⟩ := pursued
  dsimp only at opened left ended
  cases ended with
  | answered answered =>
    unfold loaded? at answered
    by_cases full : last.isFullyMapped = true
    · rw [if_pos full] at answered
      cases answered
      obtain ⟨⟩ := opened
      exact ⟨rfl, full, more, chained, left⟩
    · simp [full] at answered
  | full _ _ => cases opened
  | refused _ _ => cases opened
  | spent _ _ => cases opened

/-- **Known forks are read as others.** If a stream can be made of a fork, reading through
its known extents delivers what the fork itself would have delivered while fetching its
records: the same bytes, or the same error. An exact read of the stream succeeds when that
fills what was wanted, and otherwise says how much of it there was. -/
theorem mapped_agrees {window : Window} {stream : ForkStream}
    (opened : (ForkStream.ofFork window (ofData data kind fileId blockSize) overflow).run =
      .ok stream) (offset wanted : Nat) :
    let delivered := ((readRange window overflow offset wanted).run.run
      (ofData data kind fileId blockSize)).1
    (stream.fork.readMapped stream.window offset wanted : ExceptT Error Id Bytes).run = delivered ∧
      (stream.readExact offset wanted : ExceptT Error Id Bytes).run =
        match delivered with
        | .ok bytes =>
          if bytes.length = wanted then .ok bytes
          else .error (.shortRead offset wanted bytes.length)
        | .error cause => .error cause := by
  intro delivered
  obtain ⟨rfl, full, further⟩ := full_of_ofFork opened
  have located_ (block : Nat) : locate overflow (ofData data kind fileId blockSize) block =
      located stream.fork block := by
    rw [← locate_full full block, locate_furtherOn further]
  have read : delivered = _ :=
    (readRange_furtherOn furtherOn_ofData stream.window offset wanted).1
  have mapped : (stream.fork.readMapped stream.window offset wanted :
      ExceptT Error Id Bytes).run = delivered := by
    obtain ⟨more, _, state⟩ := further
    rw [readMapped_eq, read]
    simp only [located_]
    rw [state]
    rfl
  refine ⟨mapped, ?_⟩
  rw [ForkStream.readExact, run_bind_direct, mapped]
  cases delivered with
  | error cause => rfl
  | ok bytes =>
    dsimp only [Except.bind]
    split <;> rfl

section Sample

/-- A stream can be made of the sample, and its record is known then. -/
theorem sample_stream :
    (ForkStream.ofFork sampleWindow (ofData sampleData .data 17 4) sampleOverflow).run =
      .ok ⟨sampleWindow, ofRecords sampleData .data 17 4 [sampleRun 1 1]⟩ := rfl

/-- A read across the extents of the sample delivers the same both ways, and less than an
exact read wants. -/
theorem mapped_agrees_sample :
    let stream : ForkStream := ⟨sampleWindow, ofRecords sampleData .data 17 4 [sampleRun 1 1]⟩
    (ForkStream.ofFork sampleWindow (ofData sampleData .data 17 4) sampleOverflow).run =
        .ok stream ∧
      (stream.fork.readMapped stream.window 6 10 : ExceptT Error Id Bytes).run =
        .ok [14, 15, 4, 5, 6] ∧
      (stream.readExact 6 10 : ExceptT Error Id Bytes).run = .error (.shortRead 6 10 5) := by
  have delivered : ((readRange sampleWindow sampleOverflow 6 10).run.run
      (ofData sampleData .data 17 4)).1 = .ok [14, 15, 4, 5, 6] := by decide +kernel
  obtain ⟨mapped, exactly⟩ := mapped_agrees sample_stream 6 10
  rw [delivered] at mapped exactly
  exact ⟨sample_stream, mapped, exactly⟩

end Sample

end Fork

end HfsPlus
