import HfsPlus.Proofs.FileSystem.Mounting
import HfsPlus.Proofs.Fork.Checked
import HfsPlus.Proofs.Fork.History

/-!
# The arithmetic of a fork is exact

A fork keeps its numbers within bounds, `Fork.Bounded`, from its own data on: a record is only
fetched for a first unmapped block that has a 32-bit number, and a block size that is a power of two
leaves room for the place of every byte. Within these bounds checked arithmetic does not stop. Each
step of a call completes as the step without checks does, and leaves a fork within the bounds, so
calls that are made one after the other complete as well, whatever source the records come from.
-/

namespace HfsPlus

namespace Fork

/-- The numbers of a fork are such as its own data and its overflow records give. -/
structure Bounded (blockSize : Nat) (fork : Fork) : Prop where
  extents : fork.extents.Bounded
  logicalSize : fork.logicalSize < 2 ^ 64
  blockSize : fork.blockSize = blockSize

end Fork

namespace Checked

/-- The runs in a fork's own data are counted exactly, whatever numbers stand there. -/
theorem ofData_exact (data : ForkData) (kind : ForkKind) (fileId : UInt32) (blockSize : Nat) :
    ofData data kind fileId blockSize = some (Fork.ofData data kind fileId blockSize) ∧
      (Fork.ofData data kind fileId blockSize).Bounded blockSize := by
  have empty : ExtentList.Bounded [] := fun extent member => by cases member
  obtain ⟨added, bounded⟩ := addRecord_exact empty data.extents (by decide)
  refine ⟨?_, bounded, data.logicalSize.toNat_lt, rfl⟩
  rw [ofData, added]
  rfl

section Known

variable {fork : Fork} (bounded : fork.extents.Bounded)
include bounded

/-- Whether all blocks are known is found exactly. -/
theorem isFullyMapped_exact : isFullyMapped fork = some fork.isFullyMapped := by
  rw [isFullyMapped, mappedBlocks_exact bounded]
  rfl

/-- A block is found where the fork has it, which is where a run may put it. -/
theorem mapping?_exact (block : Nat) : mapping? fork block = some (fork.mapping? block) ∧
    ∀ mapping, fork.mapping? block = some mapping → mapping.Bounded := by
  refine ⟨?_, fun mapping found => bounded.lookup (Fork.mapping?_eq_some.mp found)⟩
  rw [mapping?, lookupBlock_exact bounded]
  cases found : fork.mapping? block with
  | none =>
    rw [Fork.mapping?_eq_none] at found
    rw [found]
    rfl
  | some mapping =>
    rw [Fork.mapping?_eq_some] at found
    rw [found]
    exact dif_pos mapping.available_pos

end Known

section Agreeing

open Agreement

/-- What is known to be there stops nothing. -/
theorem liftM_of_some {n : Type → Type} [Monad n] [MonadLiftT Option n]
    [LawfulMonadLiftT Option n] {α : Type} {outcome : Option α} {value : α}
    (known : outcome = some value) : (liftM outcome : n α) = pure value := by
  rw [known]
  exact monadLift_pure value

section Overflow

variable (m : Type → Type) [Monad m] [LawfulMonad m] [Logging m] (blockSize : Nat)

/-- Checked arithmetic on a bounded fork completes as arithmetic without bounds does, and leaves the
same fork, which is bounded again. -/
abbrev exactly : Agreement (StateT Fork (OptionT m)) (StateT Fork m) :=
  (completing m).keeping (Fork.Bounded blockSize)

variable {m blockSize}

/-- The fork that is passed along is the same on both sides, and bounded. -/
theorem state_read : (exactly m blockSize).holds
    (fun left right => left = right ∧ right.Bounded blockSize) get get :=
  fun _ bounded => holds_pure _ ⟨⟨rfl, bounded⟩, rfl, bounded⟩

/-- So it is where a computation may fail. -/
theorem fork_read : ((exactly m blockSize).exceptT Error).holds
    (fun left right => left = right ∧ right.Bounded blockSize) (getThe Fork) (getThe Fork) :=
  holds_lift _ state_read

/-- A bounded fork may take its place. -/
theorem fork_written {fork : Fork} (bounded : fork.Bounded blockSize) :
    ((exactly m blockSize).exceptT Error).holds Eq (set fork) (set fork) :=
  holds_lift _ fun _ _ => holds_pure _ ⟨rfl, rfl, bounded⟩

/-- What is done beside a fork completes and leaves it as it is. -/
theorem beside_exact {α : Type} (action : ExceptT Error m α) :
    ((exactly m blockSize).exceptT Error).holds Eq (beside action) (Fork.beside action) := by
  intro fork bounded
  refine holds_bind _ (completing_lift action.run) ?_
  rintro outcome _ rfl
  exact holds_pure _ ⟨outcomes_same outcome, rfl, bounded⟩

variable (overflow : OverflowSource m)

/-- Extending a fork is exact: a record is only fetched for a 32-bit block number, so there is room
for its runs. -/
theorem extend_exact :
    ((exactly m blockSize).exceptT Error).holds Eq (extend overflow) (Fork.extend overflow) := by
  unfold extend Fork.extend
  refine holds_bind _ fork_read ?_
  rintro fork _ ⟨rfl, bounded⟩
  rw [liftM_of_some (mappedBlocks_exact bounded.extents), pure_bind]
  dsimp only [Fork.mappedBlocks]
  split
  · exact holds_same _ false
  next numbered =>
  refine holds_next _ (beside_exact _) ?_
  rintro (_ | record)
  · exact holds_noted _ _ (holds_same _ false)
  dsimp only
  split
  · exact holds_same _ false
  have room : fork.extents.mappedBlocks + 8 * (2 ^ 32 - 1) ≤ blockLimit := by
    have first : fork.extents.mappedBlocks < 2 ^ 32 := Nat.lt_of_not_le numbered
    rw [blockLimit]
    omega
  obtain ⟨added, boundedAfter⟩ := addRecord_exact bounded.extents record room
  rw [liftM_of_some added, pure_bind]
  refine holds_next _ (fork_written ⟨boundedAfter, bounded.logicalSize, bounded.blockSize⟩) ?_
  intro _
  rw [liftM_of_some (mappedBlocks_exact boundedAfter), pure_bind]
  exact holds_noted _ _ (holds_same _ true)

/-- Both sides found the same mapping, where a run may put it, or both found none. -/
def SamePlace (left right : Option Mapping) : Prop :=
  left = right ∧ ∀ mapping, right = some mapping → mapping.Bounded

/-- No mapping is the same as none. -/
theorem samePlace_none : SamePlace none none := ⟨rfl, fun mapping found => by cases found⟩

/-- Looking a block up is exact as far as some records go. Induct over the records. -/
theorem resolveWithin_exact (block records : Nat) :
    ((exactly m blockSize).exceptT Error).holds SamePlace (resolveWithin overflow block records)
      (Fork.resolveWithin overflow block records) := by
  induction records with
  | zero =>
    refine holds_bind _ fork_read ?_
    rintro fork _ ⟨rfl, bounded⟩
    obtain ⟨found, placed⟩ := mapping?_exact bounded.extents block
    rw [liftM_of_some found]
    exact holds_pure _ ⟨rfl, placed⟩
  | succ records inductionHypothesis =>
    unfold resolveWithin Fork.resolveWithin
    refine holds_bind _ fork_read ?_
    rintro fork _ ⟨rfl, bounded⟩
    obtain ⟨found, placed⟩ := mapping?_exact bounded.extents block
    rw [liftM_of_some found, pure_bind]
    cases known : fork.mapping? block with
    | some mapping =>
      rw [known] at placed
      exact holds_pure _ ⟨rfl, placed⟩
    | none =>
      dsimp only
      rw [liftM_of_some (isFullyMapped_exact bounded.extents), pure_bind]
      split
      · exact holds_pure _ samePlace_none
      · refine holds_next _ (extend_exact overflow) fun extended => ?_
        cases extended with
        | true => exact inductionHypothesis
        | false => exact holds_pure _ samePlace_none

/-- Looking a block up is exact, however many records it takes. -/
theorem resolve_exact (block : Nat) :
    ((exactly m blockSize).exceptT Error).holds SamePlace (resolve overflow block)
      (Fork.resolve overflow block) := by
  refine holds_bind _ fork_read ?_
  rintro fork _ ⟨rfl, -⟩
  split
  · exact holds_pure _ samePlace_none
  · exact resolveWithin_exact overflow block _

/-- Loading all that is missing is exact as far as some records go. Induct over the records. -/
theorem loadWithin_exact (records : Nat) :
    ((exactly m blockSize).exceptT Error).holds Eq (loadWithin overflow records)
      (Fork.loadWithin overflow records) := by
  induction records with
  | zero =>
    refine holds_bind _ fork_read ?_
    rintro fork _ ⟨rfl, -⟩
    exact holds_same _ _
  | succ records inductionHypothesis =>
    unfold loadWithin Fork.loadWithin
    refine holds_bind _ fork_read ?_
    rintro fork _ ⟨rfl, bounded⟩
    rw [liftM_of_some (isFullyMapped_exact bounded.extents), pure_bind]
    split
    · exact holds_same _ _
    · refine holds_next _ (extend_exact overflow) fun extended => ?_
      cases extended with
      | true => exact inductionHypothesis
      | false =>
        rw [if_neg Bool.false_ne_true, if_neg Bool.false_ne_true,
          liftM_of_some (mappedBlocks_exact bounded.extents), pure_bind]
        exact holds_throw _ _

/-- Loading all records is exact. -/
theorem loadAll_exact :
    ((exactly m blockSize).exceptT Error).holds Eq (loadAll overflow) (Fork.loadAll overflow) := by
  refine holds_bind _ fork_read ?_
  rintro fork _ ⟨rfl, -⟩
  exact loadWithin_exact overflow _

end Overflow

section Reading

variable {C P : Type → Type} [Monad C] [Monad P] [LawfulMonad C] [LawfulMonad P]
variable [Logging C] [Logging P] [MonadLiftT Option C] [LawfulMonadLiftT Option C]
variable (agreement : Agreement C P) (window : Window) {blockSize : Nat}

/-- Both sides locate a block at the same place, where a run may put it, or fail alike. -/
def LocatedAlike (checked : Nat → ExceptT Error C Mapping) (plain : Nat → ExceptT Error P Mapping) :
    Prop :=
  ∀ block, (agreement.exceptT Error).holds (fun left right => left = right ∧ right.Bounded)
    (checked block) (plain block)

variable {checked : Nat → ExceptT Error C Mapping} {plain : Nat → ExceptT Error P Mapping}
variable {agreement} (alike : LocatedAlike agreement checked plain) (small : blockSize ≤ 2 ^ 31)
include alike small

/-- Reading run by run is exact as long as 64 bits hold the end of what is read. The induction
follows what is left to read. -/
theorem readRuns_exact (sized : 0 < blockSize) {offset wanted : Nat}
    (inside : offset + wanted < 2 ^ 64) (done : Nat) :
    (agreement.exceptT Error).holds Eq (readRuns window blockSize checked offset wanted done)
      (Fork.readRuns window blockSize sized plain (offset + done) (wanted - done)) := by
  induction ahead : wanted - done using Nat.strong_induction_on generalizing done with
  | h left inductionHypothesis =>
  rw [readRuns, Fork.readRuns]
  by_cases more : done < wanted
  · rw [dif_pos more, if_neg (by omega), liftM_of_some (sum_exact (by omega)), pure_bind]
    refine holds_bind _ (alike _) ?_
    rintro mapping _ ⟨rfl, bounded⟩
    have within : (offset + done) % blockSize < blockSize := Nat.mod_lt _ sized
    have whole : blockSize ≤ mapping.blocksAvailable * blockSize :=
      Nat.le_mul_of_pos_left _ mapping.available_pos
    have place := bounded.place_lt small within
    have nonempty : ¬ min left (mapping.blocksAvailable * blockSize - (offset + done) % blockSize)
      = 0 := by omega
    simp only [liftM_of_some (product_exact (bounded.run_lt small)),
      liftM_of_some (difference_exact (within.le.trans whole)),
      liftM_of_some (difference_exact more.le),
      liftM_of_some (product_exact (Nat.lt_of_le_of_lt (Nat.le_add_right _ _) place)),
      liftM_of_some (sum_exact place), pure_bind, ahead]
    refine holds_next _ (agreement.window_readExact window _ _) fun bytes => ?_
    rw [dif_neg nonempty, Nat.add_assoc]
    refine holds_next _ (inductionHypothesis _ ?_ _ ?_) fun rest => holds_same _ _
    · omega
    · omega
  · rw [dif_neg more, if_pos (by omega)]
    exact holds_same _ _

/-- Reading a stream is exact if 64 bits hold its length, wherever the read starts and however much
is wanted. -/
theorem readStream_exact {logicalSize : Nat} (fits : logicalSize < 2 ^ 64) (offset wanted : Nat) :
    (agreement.exceptT Error).holds Eq
      (readStream window blockSize logicalSize checked offset wanted)
      (Fork.readStream window blockSize logicalSize plain offset wanted) := by
  unfold readStream Fork.readStream
  by_cases sized : 0 < blockSize
  · rw [dif_pos sized]
    by_cases past : logicalSize ≤ offset
    · rw [if_pos (.inl past), Nat.sub_eq_zero_of_le past, Nat.min_zero, Fork.readRuns, if_pos rfl]
      exact holds_same _ _
    · rw [if_neg (by omega), liftM_of_some (difference_exact (Nat.le_of_not_le past)), pure_bind]
      exact readRuns_exact window alike small sized (by omega) 0
  · rw [dif_neg sized, if_pos (by omega)]
    exact holds_same _ _

end Reading

section Forks

variable {m : Type → Type} [Monad m] [LawfulMonad m] [Logging m] {blockSize : Nat}
variable (small : blockSize ≤ 2 ^ 31) (window : Window) (offset wanted : Nat)
include small

/-- Reading a fork is exact, also where it fetches records. -/
theorem readRange_exact (overflow : OverflowSource m) :
    ((exactly m blockSize).exceptT Error).holds Eq (readRange window overflow offset wanted)
      (Fork.readRange window overflow offset wanted) := by
  refine holds_bind _ fork_read ?_
  rintro fork _ ⟨rfl, bounded⟩
  rw [bounded.blockSize]
  refine readStream_exact window (fun block => ?_) small bounded.logicalSize offset wanted
  refine holds_bind _ (resolve_exact overflow block) ?_
  rintro found _ ⟨rfl, placed⟩
  cases found with
  | none => exact holds_throw _ _
  | some mapping => exact holds_pure _ ⟨rfl, placed mapping rfl⟩

/-- So is reading through its known extents alone. -/
theorem readMapped_exact {fork : Fork} (bounded : fork.Bounded blockSize) :
    ((exactly m blockSize).exceptT Error).holds Eq (readMapped fork window offset wanted)
      (fork.readMapped window offset wanted) := by
  unfold readMapped Fork.readMapped
  rw [bounded.blockSize]
  refine readStream_exact window (fun block => ?_) small bounded.logicalSize offset wanted
  obtain ⟨found, placed⟩ := mapping?_exact bounded.extents block
  rw [liftM_of_some found, pure_bind]
  cases known : fork.mapping? block with
  | none => exact holds_throw _ _
  | some mapping =>
    dsimp only
    split
    · exact holds_pure _ ⟨rfl, placed mapping known⟩
    · exact holds_throw _ _

end Forks

end Agreeing

end Checked

namespace Fork

/-- What may be done to a fork: it is asked something, or read through the extents that it knows at
the time. -/
inductive Call where
  | request (request : Request)
  | readMapped (window : Window) (offset wanted : Nat)

section Answers

variable {m : Type → Type} [Monad m] [Logging m]

/-- Answer a call. -/
def answer (overflow : OverflowSource m) : Call → StateT Fork m Reply
  | .request request => reply overflow request
  | .readMapped window offset wanted => do
    let fork ← get
    let delivered : ExceptT Error (StateT Fork m) Bytes := fork.readMapped window offset wanted
    return .bytes (← delivered.run)

/-- The answers to calls that are made one after the other. -/
def answers (overflow : OverflowSource m) : List Call → StateT Fork m (List Reply)
  | [] => return []
  | call :: later => do
    let first ← answer overflow call
    return first :: (← answers overflow later)

end Answers

end Fork

namespace Checked

section Answers

open Agreement

variable {m : Type → Type} [Monad m] [Logging m]

/-- Answer a call in checked arithmetic. -/
def answer (overflow : OverflowSource m) : Fork.Call → StateT Fork (OptionT m) Fork.Reply
  | .request (.resolve block) => return .place (← (resolve overflow block).run)
  | .request .loadAll => return .loaded (← (loadAll overflow).run)
  | .request (.readRange window offset wanted) =>
    return .bytes (← (readRange window overflow offset wanted).run)
  | .readMapped window offset wanted => do
    let fork ← get
    let delivered : ExceptT Error (StateT Fork (OptionT m)) Bytes :=
      readMapped fork window offset wanted
    return .bytes (← delivered.run)

/-- The answers to calls that are made one after the other, in checked arithmetic. -/
def answers (overflow : OverflowSource m) :
    List Fork.Call → StateT Fork (OptionT m) (List Fork.Reply)
  | [] => return []
  | call :: later => do
    let first ← answer overflow call
    return first :: (← answers overflow later)

variable [LawfulMonad m] {blockSize : Nat} (small : blockSize ≤ 2 ^ 31)
variable (overflow : OverflowSource m)
include small

/-- Each call is answered exactly, and leaves a bounded fork. -/
theorem answer_exact (call : Fork.Call) :
    (exactly m blockSize).holds Eq (answer overflow call) (Fork.answer overflow call) := by
  cases call with
  | request request =>
    cases request with
    | resolve block =>
      have same : ((exactly m blockSize).exceptT Error).holds Eq (resolve overflow block)
          (Fork.resolve overflow block) :=
        holds_weaken _ (resolve_exact overflow block) fun _ _ place => place.1
      exact holds_next _ (holds_run _ same) fun _ => holds_same _ _
    | loadAll => exact holds_next _ (holds_run _ (loadAll_exact overflow)) fun _ => holds_same _ _
    | readRange window offset wanted =>
      have same := readRange_exact small window offset wanted overflow
      exact holds_next _ (holds_run _ same) fun _ => holds_same _ _
  | readMapped window offset wanted =>
    refine holds_bind _ state_read ?_
    rintro fork _ ⟨rfl, bounded⟩
    have same := readMapped_exact (m := m) small window offset wanted bounded
    exact holds_next _ (holds_run _ same) fun _ => holds_same _ _

/-- So are calls one after the other. -/
theorem answers_exact (calls : List Fork.Call) :
    (exactly m blockSize).holds Eq (answers overflow calls) (Fork.answers overflow calls) := by
  induction calls with
  | nil => exact holds_same _ _
  | cons call later inductionHypothesis =>
    refine holds_next _ (answer_exact small overflow call) fun first => ?_
    exact holds_next _ inductionHypothesis fun _ => holds_same _ _

end Answers

end Checked

namespace Fork

/-- **The arithmetic of a fork is exact on every volume that is accepted.** Whatever its data says,
whatever records its source comes up with, and whatever is asked of it, no sum and no product that
it takes is too large for 64 bits and no difference is negative: checked arithmetic never stops, and
comes to the same. The blocks that it maps stay far below that bound. -/
theorem arithmetic_exact {m : Type → Type} [Monad m] [LawfulMonad m] [Logging m]
    (overflow : OverflowSource m) (data : ForkData) (kind : ForkKind) (fileId blockSize : UInt32)
    (accepted : FileSystem.isPowerOfTwo blockSize.toNat = true) (calls : List Call) :
    let start := ofData data kind fileId blockSize.toNat
    Checked.ofData data kind fileId blockSize.toNat = some start ∧
      ((Checked.answers overflow calls).run start).run =
        some <$> (answers overflow calls).run start ∧
      Always (fun ended => ended.2.mappedBlocks < 2 ^ 36) ((answers overflow calls).run start) := by
  intro start
  obtain ⟨known, bounded⟩ := Checked.ofData_exact data kind fileId blockSize.toNat
  have small := FileSystem.le_of_isPowerOfTwo accepted
  have completes := Checked.answers_exact small overflow calls start bounded
  refine ⟨known, ?_, ?_⟩
  · refine Agreement.run_of_completing ?_
    exact Agreement.holds_weaken _ completes fun _ _ ends => Prod.ext ends.1 ends.2.1
  · refine Agreement.always_of_completing (Agreement.holds_weaken _ completes ?_)
    intro _ ended ends
    exact Nat.lt_of_le_of_lt ends.2.2.extents.mappedBlocks_le (by decide)

/-- A fork whose data says the greatest numbers that it can. -/
def fullest : ForkData where
  logicalSize := 0xFFFFFFFFFFFFFFFF
  clumpSize := 0
  totalBlocks := 0xFFFFFFFF
  extents := .replicate 8 ⟨0xFFFFFFFF, 0xFFFFFFFF⟩

/-- With the largest blocks that are accepted, 64 bits still hold where the last block of its first
run lies. -/
theorem arithmetic_exact_fullest :
    FileSystem.isPowerOfTwo (0x80000000 : UInt32).toNat = true ∧
      let start := ofData fullest .data 17 0x80000000
      ((Checked.answers (m := Id) OverflowSource.none [.request (.resolve (2 ^ 32 - 2))]).run
        start).run = some ([.place (.ok (some ⟨2 ^ 33 - 3, 1, Nat.one_pos⟩))], start) := by
  have accepted : FileSystem.isPowerOfTwo (0x80000000 : UInt32).toNat = true := by decide +kernel
  refine ⟨accepted, ?_⟩
  exact (arithmetic_exact (m := Id) .none fullest .data 17 0x80000000 accepted
    [.request (.resolve (2 ^ 32 - 2))]).2.1

end Fork

end HfsPlus
