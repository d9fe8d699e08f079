import HfsPlus.Fork
import HfsPlus.Proofs.Completion
import HfsPlus.Proofs.Fork.Runs
import Mathlib.Algebra.Ring.Nat

/-!
# Forks in checked arithmetic

The numbers of blocks and bytes of a fork are natural numbers, which have no bound. A machine keeps
them in words of 64 bits. What is defined here does to a fork what the definitions of the same names
in `ExtentList` and `Fork` do, but it checks each sum, product and difference on the way: it stops
where a sum or a product is too large for such a word, and where a difference would be negative.
The number of mapped blocks is held against `2 ^ 36`, each time that it is asked for. Only the number
of steps that a look-up and a loading allow themselves is not checked. It serves to show that these
end and is no part of what they compute.

Checked arithmetic on extents is exact as long as their numbers are `Bounded`: each extent starts at
a block with a 32-bit number, counts its blocks in such a number, and ends at `blockLimit` or before.
Adding a run keeps these bounds if there is room for it.
-/

namespace HfsPlus

namespace Checked

/-- The sum of two numbers, if 64 bits hold it. -/
def sum (left right : Nat) : Option Nat :=
  if left + right < UInt64.size then some (left + right) else none

/-- The product of two numbers, if 64 bits hold it. -/
def product (left right : Nat) : Option Nat :=
  if left * right < UInt64.size then some (left * right) else none

/-- The difference of two numbers, if it is not negative. -/
def difference (left right : Nat) : Option Nat :=
  if right ≤ left then some (left - right) else none

section Extents

/-- The first logical block after an extent. -/
def logicalEnd (extent : Extent) : Option Nat := sum extent.logicalStart extent.blockCount

/-- Whether an extent holds a logical block. -/
def contains (extent : Extent) (block : Nat) : Option Bool := do
  let logicalEnd ← logicalEnd extent
  return extent.logicalStart ≤ block && block < logicalEnd

/-- The first logical block after the last extent. It is held against a limit of its own, far below
that of a word. -/
def mappedBlocks (extents : ExtentList) : Option Nat := do
  let mapped ←
    match extents.getLast? with
    | none => some 0
    | some last => logicalEnd last
  if mapped < 2 ^ 36 then some mapped else none

/-- Append a run directly after the last mapped block. -/
def add (extents : ExtentList) (startBlock blockCount : Nat) : Option ExtentList :=
  if blockCount = 0 then some extents
  else do
    let mapped ← mappedBlocks extents
    return extents ++ [⟨mapped, startBlock, blockCount⟩]

/-- Where a logical block lies, and how many blocks are left in its extent from there on. -/
def lookup (extents : ExtentList) (block : Nat) : Option (Option (Nat × Nat)) :=
  match (extents.takeWhile fun extent => extent.logicalStart ≤ block).getLast? with
  | none => some none
  | some extent => do
    if ← contains extent block then
      let skipped ← difference block extent.logicalStart
      let physical ← sum extent.startBlock skipped
      let available ← difference extent.blockCount skipped
      return some (physical, available)
    else return none

/-- Append the runs in use of eight to some extents. -/
def addRecord (extents : ExtentList) (record : ExtentRecord) : Option ExtentList :=
  record.used.foldlM (fun extents run => add extents run.startBlock.toNat run.blockCount.toNat)
    extents

end Extents

/-- A fork of which only its own data is known. -/
def ofData (data : ForkData) (kind : ForkKind) (fileId : UInt32) (blockSize : Nat) :
    Option Fork := do
  let extents ← addRecord [] data.extents
  return { Fork.ofData data kind fileId blockSize with extents := extents }

/-- Whether every block of a fork is known. -/
def isFullyMapped (fork : Fork) : Option Bool := do
  let mapped ← mappedBlocks fork.extents
  return fork.totalBlocks ≤ mapped

/-- Where a block lies, as far as the known extents say. An extent that holds a block has at least
that one left. -/
def mapping? (fork : Fork) (block : Nat) : Option (Option Mapping) := do
  match ← lookup fork.extents block with
  | none => return none
  | some (physical, available) =>
    if positive : 0 < available then return some ⟨physical, available, positive⟩
    else return none

section Overflow

variable {m : Type → Type} [Monad m] [Logging m]

/-- Run something beside a fork that cannot stop on its part. -/
def beside {α : Type} (action : ExceptT Error m α) :
    ExceptT Error (StateT Fork (OptionT m)) α :=
  Fork.beside (ExceptT.mk (OptionT.lift action.run))

/-- Fetch the overflow record of the first unmapped block and append its runs. -/
def extend (overflow : OverflowSource m) : ExceptT Error (StateT Fork (OptionT m)) Bool := do
  let fork ← getThe Fork
  let next ← mappedBlocks fork.extents
  if UInt32.size ≤ next then return false
  match ← beside (overflow fork.fileId fork.kind (UInt32.ofNat next)) with
  | none =>
    log (.noOverflowRecord fork.fileId fork.kind next fork.totalBlocks)
    return false
  | some record =>
    if record.used.isEmpty then return false
    let extents ← addRecord fork.extents record
    set { fork with extents := extents, overflowRecords := fork.overflowRecords + 1 }
    let mapped ← mappedBlocks extents
    log (.overflowLoaded fork.fileId fork.kind next mapped)
    return true

/-- Look a block up, fetching `left` records at most. -/
def resolveWithin (overflow : OverflowSource m) (block : Nat) :
    (left : Nat) → ExceptT Error (StateT Fork (OptionT m)) (Option Mapping)
  | 0 => do
    let fork ← getThe Fork
    let found ← mapping? fork block
    return found
  | left + 1 => do
    let fork ← getThe Fork
    let found ← mapping? fork block
    if let some mapping := found then return some mapping
    let full ← isFullyMapped fork
    if full then return none
    if ← extend overflow then resolveWithin overflow block left
    else return none

/-- Where a block lies, fetching overflow records as needed. -/
def resolve (overflow : OverflowSource m) (block : Nat) :
    ExceptT Error (StateT Fork (OptionT m)) (Option Mapping) := do
  let fork ← getThe Fork
  if fork.totalBlocks ≤ block then return none
  resolveWithin overflow block (fork.totalBlocks - fork.mappedBlocks)

/-- Fetch records until every block is known, `left` of them at most. -/
def loadWithin (overflow : OverflowSource m) :
    (left : Nat) → ExceptT Error (StateT Fork (OptionT m)) Nat
  | 0 => return (← getThe Fork).overflowRecords
  | left + 1 => do
    let fork ← getThe Fork
    let full ← isFullyMapped fork
    if full then return fork.overflowRecords
    if ← extend overflow then loadWithin overflow left
    else
      let mapped ← mappedBlocks fork.extents
      throw (fork.unmapped mapped)

/-- Fetch every overflow record, and count those fetched ever. -/
def loadAll (overflow : OverflowSource m) : ExceptT Error (StateT Fork (OptionT m)) Nat := do
  let fork ← getThe Fork
  loadWithin overflow (fork.totalBlocks - fork.mappedBlocks)

end Overflow

section Reading

variable {n : Type → Type} [Monad n] [Logging n] [MonadLiftT Option n]

/-- Read the bytes from `offset + done` on, run by run, until `wanted` of them are there. A run
without any would be the last one. -/
def readRuns (window : Window) (blockSize : Nat) (locate : Nat → ExceptT Error n Mapping)
    (offset wanted done : Nat) : ExceptT Error n Bytes :=
  if _more : done < wanted then do
    let position ← sum offset done
    let within := position % blockSize
    let mapping ← locate (position / blockSize)
    let whole ← product mapping.blocksAvailable blockSize
    let run ← difference whole within
    let left ← difference wanted done
    let count := min left run
    let start ← product mapping.physicalBlock blockSize
    let place ← sum start within
    let bytes ← window.readExact place count
    if _none : count = 0 then return bytes
    else
      let rest ← readRuns window blockSize locate offset wanted (done + count)
      return bytes ++ rest
  else return []
termination_by wanted - done

/-- Read up to `wanted` bytes of a stream of `logicalSize` bytes. -/
def readStream (window : Window) (blockSize logicalSize : Nat)
    (locate : Nat → ExceptT Error n Mapping) (offset wanted : Nat) : ExceptT Error n Bytes := do
  if logicalSize ≤ offset ∨ blockSize = 0 then return []
  let ahead ← difference logicalSize offset
  readRuns window blockSize locate offset (min wanted ahead) 0

/-- Read up to `wanted` bytes through the known extents alone. -/
def readMapped (fork : Fork) (window : Window) (offset wanted : Nat) : ExceptT Error n Bytes :=
  let locate (block : Nat) : ExceptT Error n Mapping := do
    match ← (mapping? fork block : Option (Option Mapping)) with
    | some mapping => if block < fork.totalBlocks then return mapping else throw (fork.unmapped block)
    | none => throw (fork.unmapped block)
  readStream window fork.blockSize fork.logicalSize locate offset wanted

end Reading

/-- Read up to `wanted` bytes, fetching overflow records on the way. -/
def readRange {m : Type → Type} [Monad m] [Logging m] (window : Window)
    (overflow : OverflowSource m) (offset wanted : Nat) :
    ExceptT Error (StateT Fork (OptionT m)) Bytes := do
  let fork ← getThe Fork
  let locate (block : Nat) : ExceptT Error (StateT Fork (OptionT m)) Mapping := do
    match ← resolve overflow block with
    | some mapping => return mapping
    | none => throw (fork.unmapped block)
  readStream window fork.blockSize fork.logicalSize locate offset wanted

end Checked

/-- No extent ends behind this block. The runs of a fork's own data count at most eight times what
a word of 32 bits counts, and a record that adds as much again is only fetched for a first unmapped
block whose number is such a word. -/
def blockLimit : Nat := 9 * (2 ^ 32 - 1)

/-- The numbers of an extent are such as the runs of a fork give. -/
structure Extent.Bounded (extent : Extent) : Prop where
  start : extent.startBlock < 2 ^ 32
  count : extent.blockCount < 2 ^ 32
  ends : extent.logicalEnd ≤ blockLimit

/-- A block lies where a run may put it: a run starts at a block with a 32-bit number, and counts
its blocks in such a number. -/
structure Mapping.Bounded (mapping : Mapping) : Prop where
  physical : mapping.physicalBlock ≤ 2 ^ 33 - 3
  available : mapping.blocksAvailable < 2 ^ 32

section Mapping

variable {mapping : Mapping} (bounded : mapping.Bounded) {blockSize : Nat}
variable (small : blockSize ≤ 2 ^ 31)
include bounded small

/-- 64 bits hold how many bytes are left in an extent. -/
theorem Mapping.Bounded.run_lt : mapping.blocksAvailable * blockSize < 2 ^ 64 :=
  Nat.lt_of_le_of_lt (Nat.mul_le_mul bounded.available.le small) (by decide)

/-- They hold where a byte of a block lies on the volume, if a block has no more than `2 ^ 31`
bytes. With blocks twice as large, the last block that a run may reach would lie beyond. -/
theorem Mapping.Bounded.place_lt {within : Nat} (inside : within < blockSize) :
    mapping.physicalBlock * blockSize + within < 2 ^ 64 := by
  have start : mapping.physicalBlock * blockSize ≤ (2 ^ 33 - 3) * 2 ^ 31 :=
    Nat.mul_le_mul bounded.physical small
  omega

end Mapping

/-- All extents have bounded numbers. -/
def ExtentList.Bounded (extents : ExtentList) : Prop := ∀ extent ∈ extents, extent.Bounded

namespace ExtentList

/-- Bounded extents map no block from the limit on. -/
theorem Bounded.mappedBlocks_le {extents : ExtentList} (bounded : extents.Bounded) :
    extents.mappedBlocks ≤ blockLimit := by
  unfold mappedBlocks
  split
  · exact Nat.zero_le _
  next last found => exact (bounded last (List.mem_of_getLast? found)).ends

/-- Adding a run keeps extents bounded if they leave room for it below the limit. -/
theorem Bounded.add {extents : ExtentList} (bounded : extents.Bounded) (run : ExtentDescriptor)
    (room : extents.mappedBlocks + run.blockCount.toNat ≤ blockLimit) :
    (extents.add run.startBlock.toNat run.blockCount.toNat).Bounded := by
  unfold ExtentList.add
  split
  · exact bounded
  · intro extent member
    rcases List.mem_append.mp member with before | last
    · exact bounded extent before
    · obtain rfl := List.mem_singleton.mp last
      exact ⟨run.startBlock.toNat_lt, run.blockCount.toNat_lt, room⟩

/-- A block that bounded extents map lies where a run may put it. -/
theorem Bounded.lookup {extents : ExtentList} (bounded : extents.Bounded) {block : Nat}
    {mapping : Mapping}
    (found : extents.lookup block = some (mapping.physicalBlock, mapping.blocksAvailable)) :
    mapping.Bounded := by
  unfold ExtentList.lookup at found
  split at found
  · cases found
  next extent last =>
  have member := (List.takeWhile_prefix _).subset (List.mem_of_getLast? last)
  have small := bounded extent member
  have start := small.start
  have count := small.count
  split at found
  next inside =>
    have bounds := (extent.contains_iff block).mp inside
    obtain ⟨physical, available⟩ := Prod.mk.inj (Option.some.inj found)
    exact ⟨by omega, by omega⟩
  · cases found

end ExtentList

namespace Checked

/-- A sum that fits is computed. -/
theorem sum_exact {left right : Nat} (fits : left + right < 2 ^ 64) :
    sum left right = some (left + right) := if_pos fits

/-- A product that fits is computed. -/
theorem product_exact {left right : Nat} (fits : left * right < 2 ^ 64) :
    product left right = some (left * right) := if_pos fits

/-- A difference that is not negative is computed. -/
theorem difference_exact {left right : Nat} (covered : right ≤ left) :
    difference left right = some (left - right) := if_pos covered

section Extents

/-- 64 bits hold the end of a bounded extent. -/
theorem logicalEnd_exact {extent : Extent} (bounded : extent.Bounded) :
    logicalEnd extent = some extent.logicalEnd :=
  sum_exact (Nat.lt_of_le_of_lt bounded.ends (by decide))

/-- Whether a bounded extent contains a block is found exactly. -/
theorem contains_exact {extent : Extent} (bounded : extent.Bounded) (block : Nat) :
    contains extent block = some (extent.contains block) := by
  rw [contains, logicalEnd_exact bounded]
  rfl

variable {extents : ExtentList} (bounded : extents.Bounded)
include bounded

/-- How many blocks are mapped is found exactly. -/
theorem mappedBlocks_exact : mappedBlocks extents = some extents.mappedBlocks := by
  have below : extents.mappedBlocks < 2 ^ 36 :=
    Nat.lt_of_le_of_lt bounded.mappedBlocks_le (by decide)
  unfold mappedBlocks
  unfold ExtentList.mappedBlocks at below ⊢
  cases found : extents.getLast? with
  | none => rfl
  | some last =>
    rw [found] at below
    dsimp only
    rw [logicalEnd_exact (bounded last (List.mem_of_getLast? found))]
    exact if_pos below

/-- A run is appended at a block that 64 bits hold. -/
theorem add_exact (startBlock blockCount : Nat) :
    add extents startBlock blockCount = some (extents.add startBlock blockCount) := by
  unfold add ExtentList.add
  split
  · rfl
  · rw [mappedBlocks_exact bounded]
    rfl

/-- Looking a block up takes no sum that is too large and no difference that is negative. -/
theorem lookupBlock_exact (block : Nat) : lookup extents block = some (extents.lookup block) := by
  unfold lookup ExtentList.lookup
  cases last : (extents.takeWhile fun extent => extent.logicalStart ≤ block).getLast? with
  | none => rfl
  | some extent =>
    have member := (List.takeWhile_prefix _).subset (List.mem_of_getLast? last)
    have small := bounded extent member
    have start := small.start
    have count := small.count
    dsimp only
    rw [contains_exact small]
    by_cases inside : extent.contains block = true
    · obtain ⟨starts, ends⟩ := (extent.contains_iff block).mp inside
      have skipped : block - extent.logicalStart < extent.blockCount := by omega
      have physical : extent.startBlock + (block - extent.logicalStart) < 2 ^ 64 := by omega
      simp only [inside, Option.bind_eq_bind, Option.bind_some, ↓reduceIte,
        difference_exact starts, sum_exact physical, difference_exact skipped.le]
      rfl
    · simp only [inside, Option.bind_eq_bind, Option.bind_some, Bool.false_eq_true, ↓reduceIte]
      rfl

/-- Appending runs is exact, and keeps extents bounded, if there is room for as many blocks as that
many runs may count. -/
theorem addRuns_exact (runs : List ExtentDescriptor)
    (room : extents.mappedBlocks + runs.length * (2 ^ 32 - 1) ≤ blockLimit) :
    runs.foldlM (fun extents run => add extents run.startBlock.toNat run.blockCount.toNat)
        extents = some (runs.foldl (fun extents run =>
          extents.add run.startBlock.toNat run.blockCount.toNat) extents) ∧
      ExtentList.Bounded (runs.foldl (fun extents run =>
        extents.add run.startBlock.toNat run.blockCount.toNat) extents) := by
  induction runs generalizing extents with
  | nil => exact ⟨rfl, bounded⟩
  | cons run later inductionHypothesis =>
    have count := run.blockCount.toNat_lt
    have next := ExtentList.mappedBlocks_add extents run.startBlock.toNat run.blockCount.toNat
    rw [List.length_cons, Nat.succ_mul] at room
    have here := bounded.add run (by omega)
    rw [List.foldlM_cons, List.foldl_cons, add_exact bounded]
    exact inductionHypothesis here (by omega)

/-- So is appending the runs of a record, of which there are eight. -/
theorem addRecord_exact (record : ExtentRecord)
    (room : extents.mappedBlocks + 8 * (2 ^ 32 - 1) ≤ blockLimit) :
    addRecord extents record = some (extents.addRecord record) ∧
      (extents.addRecord record).Bounded := by
  refine addRuns_exact bounded record.used (Nat.le_trans ?_ room)
  exact Nat.add_le_add_left (Nat.mul_le_mul_right _ record.length_used_le) _

end Extents

end Checked

end HfsPlus
