import HfsPlus.Proofs.Fork.Answers
import HfsPlus.Proofs.Fork.Places

/-!
# What a fork asks its source

Loading a fork and looking a block up go on for as long as the source comes up with records. What
ends them is that each record that is accepted maps a block more: the next question is for a block
further on, and no question is for a block at or past the end of the fork. A source that is
`attended` keeps what it was asked, so that these questions can be counted.

How loading ends is settled by the chain of the fork's records, `LoadEnds`. It succeeds where the
runs of a chain reach the end of the fork, and otherwise fails at the first block that they leave
unmapped, because the source refuses the record of that block, has none, or has one that maps
nothing.
-/

namespace HfsPlus

/-- What a source of overflow records is asked for: the record of a fork of a file that is kept
under a block. -/
structure Question where
  fileId : UInt32
  kind : ForkKind
  block : UInt32
  deriving DecidableEq, Repr

/-- Computations that keep the questions put to a source, in order. -/
abbrev Attended : Type → Type := StateM (List Question)

/-- A source that is watched: each question to it is kept. -/
def OverflowSource.attended (overflow : OverflowSource Id) : OverflowSource Attended :=
  fun fileId kind block => ExceptT.mk do
    modify fun asked => asked ++ [⟨fileId, kind, block⟩]
    return (overflow fileId kind block).run

/-- Blocks that ascend from `low` on and stay below `high`. -/
def Ascending (high : Nat) : (low : Nat) → List Nat → Prop
  | _, [] => True
  | low, block :: later => low ≤ block ∧ block < high ∧ Ascending high (block + 1) later

namespace Ascending

variable {low high : Nat} {blocks : List Nat}

/-- What ascends from a block on ascends from any block before it. -/
theorem mono {lower : Nat} (ascending : Ascending high low blocks) (below : lower ≤ low) :
    Ascending high lower blocks := by
  cases blocks with
  | nil => trivial
  | cons block later => exact ⟨Nat.le_trans below ascending.1, ascending.2⟩

/-- Each of the blocks lies between the bounds. -/
theorem bounds (ascending : Ascending high low blocks) :
    ∀ block ∈ blocks, low ≤ block ∧ block < high := by
  induction blocks generalizing low with
  | nil => simp
  | cons first later inductionHypothesis =>
    obtain ⟨from_, inside, rest⟩ := ascending
    intro block member
    rcases List.mem_cons.mp member with rfl | isLater
    · exact ⟨from_, inside⟩
    · have between := inductionHypothesis rest block isLater
      exact ⟨by omega, between.2⟩

/-- Each is greater than those before it. -/
theorem pairwise (ascending : Ascending high low blocks) : blocks.Pairwise (· < ·) := by
  induction blocks generalizing low with
  | nil => exact .nil
  | cons first later inductionHypothesis =>
    obtain ⟨-, -, rest⟩ := ascending
    exact .cons (fun block member => (rest.bounds block member).1) (inductionHypothesis rest)

/-- There are no more of them than numbers between the bounds. -/
theorem length_le (ascending : Ascending high low blocks) : blocks.length ≤ high - low := by
  induction blocks generalizing low with
  | nil => exact Nat.zero_le _
  | cons first later inductionHypothesis =>
    obtain ⟨from_, inside, rest⟩ := ascending
    have fewer := inductionHypothesis rest
    simp only [List.length_cons]
    omega

end Ascending

/-- A record continues a chain below the bound of the chain. -/
theorem Chained.inside {overflow : OverflowSource Id} {data : ForkData} {kind : ForkKind}
    {fileId : UInt32} {bound : Nat} {records more : List ExtentRecord} {record : ExtentRecord}
    (chained : Chained overflow data kind fileId bound (records ++ record :: more)) :
    blocksIn (data.runs records) < bound := by
  generalize whole : records ++ record :: more = chain at chained
  induction chained generalizing more with
  | own => simp at whole
  | @further earlier last _ below _ _ inductionHypothesis =>
    rcases List.eq_nil_or_concat more with rfl | ⟨front, final, rfl⟩
    · obtain ⟨rfl, -⟩ := List.append_inj' whole rfl
      exact below
    · have split : (records ++ record :: front) ++ [final] = earlier ++ [last] := by
        simpa using whole
      exact inductionHypothesis (List.append_inj' split rfl).1

namespace Fork

/-- The question for the record that a fork keeps under a block. -/
def question (fork : Fork) (block : Nat) : Question := ⟨fork.fileId, fork.kind, UInt32.ofNat block⟩

section Asking

variable {α β : Type}

/-- Whatever was asked before, a computation asks for blocks that ascend from the first one that
the fork does not map and stay below the end of the fork. -/
def Asks (computation : ExceptT Error (StateT Fork Attended) α) (fork : Fork) : Prop :=
  ∀ asked, ∃ blocks, ((computation.run.run fork).run asked).2 = asked ++ blocks.map fork.question ∧
    Ascending fork.totalBlocks fork.mappedBlocks blocks

variable {fork : Fork}

/-- A computation may ask nothing at all. -/
theorem asks_nothing {computation : ExceptT Error (StateT Fork Attended) α}
    (silent : ∀ asked, ((computation.run.run fork).run asked).2 = asked) :
    Asks computation fork := by
  intro asked
  refine ⟨[], ?_, trivial⟩
  rw [silent, List.map_nil, List.append_nil]

/-- Going on after a step starts from the fork and the questions that it left. -/
theorem attended_bind (first : ExceptT Error (StateT Fork Attended) β)
    (next : β → ExceptT Error (StateT Fork Attended) α) (asked : List Question) :
    ((first >>= next).run.run fork).run asked =
      match (first.run.run fork).run asked with
      | ((.ok value, after), later) => ((next value).run.run after).run later
      | ((.error cause, after), later) => ((.error cause, after), later) := by
  change (match (first.run.run fork).run asked with
    | ((outcome, after), later) => ((ExceptT.bindCont next outcome).run after).run later) = _
  rcases (first.run.run fork).run asked with ⟨⟨_ | _, _⟩, _⟩ <;> rfl

/-- The fork that a computation looks at is the one it is run from. -/
theorem attended_get (next : Fork → ExceptT Error (StateT Fork Attended) α)
    (asked : List Question) :
    ((getThe Fork >>= next).run.run fork).run asked = ((next fork).run.run fork).run asked := rfl

variable (overflow : OverflowSource Id)

/-- Extending a fork asks for its first unmapped block, if that has a 32-bit number, and does what
it does without being watched. -/
theorem extend_attended (fork : Fork) (asked : List Question) :
    ((extend overflow.attended).run.run fork).run asked =
      ((extend overflow).run.run fork, asked ++
        if UInt32.size ≤ fork.mappedBlocks then [] else [fork.question fork.mappedBlocks]) := by
  rw [extend_run]
  unfold extend nextRecord
  rw [attended_get]
  by_cases beyond : UInt32.size ≤ fork.mappedBlocks
  · simp only [beyond, ↓reduceIte, List.append_nil]
    rfl
  · simp only [beyond, ↓reduceIte]
    have told : ((beside (overflow.attended fork.fileId fork.kind
        (UInt32.ofNat fork.mappedBlocks))).run.run fork).run asked =
      (((overflow fork.fileId fork.kind (UInt32.ofNat fork.mappedBlocks)).run, fork),
        asked ++ [fork.question fork.mappedBlocks]) := rfl
    rw [attended_bind, told]
    rcases (overflow fork.fileId fork.kind (UInt32.ofNat fork.mappedBlocks)).run with
      cause | _ | record
    · rfl
    · rfl
    · by_cases unused : record.used.isEmpty = true
      · simp only [unused, ↓reduceIte]
        rfl
      · simp only [unused]
        rfl

/-- What goes on after a fork was extended asks for ascending blocks, if it asks nothing where the
fork could not be extended, and for ascending blocks of the longer fork where it could: that one
maps a block more. -/
theorem extend_asks {next : Bool → ExceptT Error (StateT Fork Attended) α}
    (notFull : ¬ fork.isFullyMapped = true)
    (stopped : ∀ asked, (((next false).run.run fork).run asked).2 = asked)
    (continued : ∀ record, Asks (next true) (fork.withRecord record)) :
    Asks (extend overflow.attended >>= next) fork := by
  intro asked
  rw [attended_bind, extend_attended, extend_run]
  have inside : fork.mappedBlocks < fork.totalBlocks := by simpa [isFullyMapped] using notFull
  have first : ∃ blocks,
      (if UInt32.size ≤ fork.mappedBlocks then [] else [fork.question fork.mappedBlocks]) =
        blocks.map fork.question ∧ Ascending fork.totalBlocks fork.mappedBlocks blocks := by
    by_cases beyond : UInt32.size ≤ fork.mappedBlocks
    · exact ⟨[], if_pos beyond, trivial⟩
    · exact ⟨[fork.mappedBlocks], if_neg beyond, Nat.le_refl _, inside, trivial⟩
  cases found : nextRecord overflow fork with
  | error cause =>
    obtain ⟨blocks, same, ascending⟩ := first
    exact ⟨blocks, by rw [same], ascending⟩
  | ok answer =>
    cases answer with
    | none =>
      obtain ⟨blocks, same, ascending⟩ := first
      dsimp only
      rw [stopped, same]
      exact ⟨blocks, rfl, ascending⟩
    | some record =>
      obtain ⟨numbered, -, used⟩ := (nextRecord_eq_some overflow).mp found
      obtain ⟨blocks, questions, ascending⟩ :=
        continued record (asked ++ [fork.question fork.mappedBlocks])
      have more : (fork.withRecord record).mappedBlocks =
          fork.mappedBlocks + blocksIn record.used :=
        ExtentList.mappedBlocks_addRecord fork.extents record
      have positive := ExtentRecord.blocksIn_used_pos used
      refine ⟨fork.mappedBlocks :: blocks, ?_, Nat.le_refl _, inside, ascending.mono (by omega)⟩
      dsimp only
      rw [if_neg (Nat.not_le.mpr numbered), questions, List.map_cons, List.append_assoc]
      rfl

/-- Loading asks for ascending blocks. The induction is on the steps that it allows itself. -/
theorem loadWithin_asks (steps : Nat) (fork : Fork) :
    Asks (loadWithin overflow.attended steps) fork := by
  induction steps generalizing fork with
  | zero => exact asks_nothing fun asked => rfl
  | succ steps inductionHypothesis =>
    intro asked
    rw [loadWithin, attended_get]
    by_cases full : fork.isFullyMapped = true
    · rw [if_pos full]
      exact asks_nothing (fun asked => rfl) asked
    · rw [if_neg full]
      exact extend_asks overflow full (fun asked => rfl)
        (fun record => inductionHypothesis (fork.withRecord record)) asked

/-- So does looking a block up. -/
theorem resolveWithin_asks (block steps : Nat) (fork : Fork) :
    Asks (resolveWithin overflow.attended block steps) fork := by
  induction steps generalizing fork with
  | zero => exact asks_nothing fun asked => rfl
  | succ steps inductionHypothesis =>
    intro asked
    rw [resolveWithin, attended_get]
    cases fork.mapping? block with
    | some mapping => exact asks_nothing (fun asked => rfl) asked
    | none =>
      by_cases full : fork.isFullyMapped = true
      · simp only [full, ↓reduceIte]
        exact asks_nothing (fun asked => rfl) asked
      · simp only [full]
        exact extend_asks overflow full (fun asked => rfl)
          (fun record => inductionHypothesis (fork.withRecord record)) asked

/-- Watching a source changes nothing about its answers. -/
theorem attended_alike : (Agreement.ofInvariant fun _ : List Question => True).Sources
    overflow.attended overflow :=
  fun _ _ _ _ _ => ⟨Agreement.outcomes_same _, trivial⟩

/-- A computation on a fork comes to what it comes to without being watched, and asks for blocks
that ascend from the first one that the fork does not map and stay below the end of the fork. So it
asks no more often than the fork has blocks. -/
def AsksAscending (fork : Fork) (attended : ExceptT Error (StateT Fork Attended) α)
    (plain : ExceptT Error (StateT Fork Id) α) : Prop :=
  ∃ blocks : List Nat,
    (attended.run.run fork).run [] = (plain.run.run fork, blocks.map fork.question) ∧
      blocks.Pairwise (· < ·) ∧
      (∀ block ∈ blocks, fork.mappedBlocks ≤ block ∧ block < fork.totalBlocks) ∧
      blocks.length ≤ fork.totalBlocks

variable {overflow}

/-- What asks for ascending blocks, and is the same without being watched, asks no more often than
the fork has blocks. -/
theorem asksAscending {attended : ExceptT Error (StateT Fork Attended) α}
    {plain : ExceptT Error (StateT Fork Id) α} (asks : Asks attended fork)
    (alike : (((Agreement.ofInvariant fun _ : List Question => True).stateT Fork).exceptT
      Error).holds Eq attended plain) : AsksAscending fork attended plain := by
  obtain ⟨blocks, questions, ascending⟩ := asks []
  obtain ⟨⟨outcome, after⟩, -⟩ := alike fork [] trivial
  have fewer := ascending.length_le
  refine ⟨blocks, ?_, ascending.pairwise, ascending.bounds, by omega⟩
  exact Prod.ext (Prod.ext (Agreement.outcomes_eq outcome) after) questions

end Asking

section Loading

variable {overflow : OverflowSource Id} {data : ForkData} {kind : ForkKind} {fileId : UInt32}

/-- How loading a fork ends that has fetched the records of a chain: with their number, if their
runs reach the end of the fork, and otherwise for the reason that no record continues the chain
at the first block that they leave unmapped. -/
inductive LoadEnds (overflow : OverflowSource Id) (data : ForkData) (kind : ForkKind)
    (fileId : UInt32) (records : List ExtentRecord) : Except Error Nat → Prop
  | reached : data.totalBlocks.toNat ≤ blocksIn (data.runs records) →
    LoadEnds overflow data kind fileId records (.ok records.length)
  | refused {cause : Error} : blocksIn (data.runs records) < data.totalBlocks.toNat →
    (overflow fileId kind (UInt32.ofNat (blocksIn (data.runs records)))).run = .error cause →
    LoadEnds overflow data kind fileId records (.error cause)
  | absent : blocksIn (data.runs records) < data.totalBlocks.toNat →
    (overflow fileId kind (UInt32.ofNat (blocksIn (data.runs records)))).run = .ok none →
    LoadEnds overflow data kind fileId records
      (.error (.unmappedBlock fileId kind (blocksIn (data.runs records))))
  | unused {record : ExtentRecord} : blocksIn (data.runs records) < data.totalBlocks.toNat →
    (overflow fileId kind (UInt32.ofNat (blocksIn (data.runs records)))).run = .ok (some record) →
    record.used = [] →
    LoadEnds overflow data kind fileId records
      (.error (.unmappedBlock fileId kind (blocksIn (data.runs records))))

variable {records others : List ExtentRecord} {outcome other : Except Error Nat}

/-- Where loading ends, no record continues the chain. -/
theorem LoadEnds.last {record : ExtentRecord} {more : List ExtentRecord}
    (ends : LoadEnds overflow data kind fileId records outcome) :
    ¬ Chained overflow data kind fileId data.totalBlocks.toNat (records ++ record :: more) := by
  intro chained
  have below := chained.inside
  obtain ⟨found, used⟩ := chained.next
  cases ends with
  | reached covers => omega
  | refused _ refusal => cases found.symm.trans refusal
  | absent _ nothing => cases found.symm.trans nothing
  | unused _ other unusable =>
    cases found.symm.trans other
    exact used unusable

/-- With the records of one chain, loading ends in one way. -/
theorem LoadEnds.outcome_unique (ends : LoadEnds overflow data kind fileId records outcome)
    (also : LoadEnds overflow data kind fileId records other) : outcome = other := by
  cases ends <;> cases also <;> grind

/-- Loading ends with the records of one chain, in one way. -/
theorem LoadEnds.unique
    (chained : Chained overflow data kind fileId data.totalBlocks.toNat records)
    (ends : LoadEnds overflow data kind fileId records outcome)
    (alsoChained : Chained overflow data kind fileId data.totalBlocks.toNat others)
    (also : LoadEnds overflow data kind fileId others other) :
    others = records ∧ other = outcome := by
  have same : others = records := by
    rcases chained.comparable alsoChained with ⟨more, rfl⟩ | ⟨more, rfl⟩
    · cases more with
      | nil => exact List.append_nil records
      | cons record more => exact absurd alsoChained ends.last
    · cases more with
      | nil => exact (List.append_nil others).symm
      | cons record more => exact absurd chained also.last
  subst same
  exact ⟨rfl, also.outcome_unique ends⟩

variable {blockSize : Nat} {fork : Fork}

/-- A fork on its chain ends on its chain when it is loaded, and its records settle how. -/
theorem loadAll_ends (state : fork = ofRecords data kind fileId blockSize records)
    (chained : Chained overflow data kind fileId data.totalBlocks.toNat records) :
    ∃ more, Chained overflow data kind fileId data.totalBlocks.toNat (records ++ more) ∧
      ((loadAll overflow).run.run fork).2 =
        ofRecords data kind fileId blockSize (records ++ more) ∧
      LoadEnds overflow data kind fileId (records ++ more) ((loadAll overflow).run.run fork).1 := by
  rw [loadAll_run]
  obtain ⟨more, chainedLast, left, ended⟩ : ∃ more, _ ∧
      (pursue overflow loaded? (fun fork => .error (fork.unmapped fork.mappedBlocks)) fork).2 = _ ∧
        _ := pursue_ends state chained
  generalize pursue overflow loaded? _ fork = pursued at left ended ⊢
  obtain ⟨ending, last⟩ := pursued
  obtain rfl : last = ofRecords data kind fileId blockSize (records ++ more) := left
  refine ⟨more, chainedLast, rfl, ?_⟩
  have below (unknown : loaded? (ofRecords data kind fileId blockSize (records ++ more)) = none) :
      blocksIn (data.runs (records ++ more)) < data.totalBlocks.toNat := by
    by_contra reached
    have full := (isFullyMapped_ofRecords data kind fileId blockSize (records ++ more)).mpr
      (Nat.not_lt.mp reached)
    simp [loaded?, full] at unknown
  dsimp only at ended ⊢
  cases ended with
  | answered answered =>
    unfold loaded? at answered
    split at answered
    next full =>
      obtain ⟨⟩ := answered
      exact .reached ((isFullyMapped_ofRecords ..).mp full)
    · cases answered
  | full unknown full =>
    have reached := (isFullyMapped_ofRecords ..).mp full
    have missing := below unknown
    omega
  | refused unknown next =>
    have refusal := nextRecord_eq_error next
    rw [mappedBlocks_ofRecords] at refusal
    exact .refused (below unknown) refusal
  | spent unknown next =>
    have missing := below unknown
    have numbered : blocksIn (data.runs (records ++ more)) < UInt32.size :=
      Nat.lt_trans missing data.totalBlocks.toNat_lt_size
    have nothing := nextRecord_eq_none (by rwa [mappedBlocks_ofRecords]) next
    rw [mappedBlocks_ofRecords] at nothing
    rw [mappedBlocks_ofRecords]
    rcases nothing with absent | ⟨record, found, unused⟩
    · exact .absent missing absent
    · exact .unused missing found unused

/-- **Loading resolves what can be resolved.** Whatever was asked of a fork before, loading it ends
with the records of a chain, each kept under the first block that the runs before it do not map. It
succeeds with their number if the runs reach the end of the fork. Otherwise the source refuses the
record of the first unmapped block, and loading fails as the source does; or the source has no record
there, or one that maps nothing, and the error names that block. Either way the fork keeps the
extents that it had, and behind them those of the records fetched. The source is asked for blocks
that the fork does not map, in ascending order, so no more often than the fork has blocks. Looking a
block up asks in the same way; it asks nothing and finds nothing if the block is not one of the
fork. -/
theorem loading_exact (overflow : OverflowSource Id) (data : ForkData) (kind : ForkKind)
    (fileId : UInt32) (blockSize : Nat) (earlier : List Request) :
    let fork := ((replies overflow earlier).run (ofData data kind fileId blockSize)).2
    (∀ outcome after, (loadAll overflow).run.run fork = (outcome, after) ↔
      ∃ records, Chained overflow data kind fileId data.totalBlocks.toNat records ∧
        LoadEnds overflow data kind fileId records outcome ∧
        after = ofRecords data kind fileId blockSize records) ∧
      (∃ known more, fork = ofRecords data kind fileId blockSize known ∧
        ((loadAll overflow).run.run fork).2 =
          ofRecords data kind fileId blockSize (known ++ more)) ∧
      AsksAscending fork (loadAll overflow.attended) (loadAll overflow) ∧
      (∀ block, AsksAscending fork (resolve overflow.attended block) (resolve overflow block)) ∧
      ∀ block, data.totalBlocks.toNat ≤ block →
        ((resolve overflow.attended block).run.run fork).run [] = ((.ok none, fork), []) := by
  intro fork
  have fresh : FurtherOn overflow data kind fileId blockSize [] _ := furtherOn_ofData
  obtain ⟨-, known, chained, state⟩ := replies_furtherOn fresh earlier
  rw [List.nil_append] at chained state
  change fork = _ at state
  have totalBlocks : fork.totalBlocks = data.totalBlocks.toNat := by rw [state]; rfl
  obtain ⟨more, chainedLast, left, ends⟩ := loadAll_ends state chained
  have alike := attended_alike overflow
  refine ⟨fun outcome after => ?_, ⟨known, more, state, left⟩, ?_, fun block => ?_, ?_⟩
  · constructor
    · intro ran
      rw [ran] at left ends
      exact ⟨known ++ more, chainedLast, ends, left⟩
    · rintro ⟨records, chainedHere, endsHere, rfl⟩
      obtain ⟨rfl, rfl⟩ := LoadEnds.unique chainedLast ends chainedHere endsHere
      exact Prod.ext rfl left
  · exact asksAscending (loadWithin_asks overflow _ fork) alike.loadAll
  · refine asksAscending ?_ (alike.resolve block)
    intro asked
    rw [resolve, attended_get]
    split
    · exact asks_nothing (fun asked => rfl) asked
    · exact resolveWithin_asks overflow block _ fork asked
  · intro block outside
    rw [resolve, attended_get, totalBlocks, if_pos outside]
    rfl

/-- The sample has one block that its own data does not map, and is loaded with one question. -/
example : ((loadAll sampleOverflow.attended).run.run (ofData sampleData .data 17 4)).run [] =
    ((.ok 1, ofRecords sampleData .data 17 4 [sampleRun 1 1]), [⟨17, .data, 2⟩]) := rfl

end Loading

end Fork

end HfsPlus
