import HfsPlus.Extent
import HfsPlus.Structure.Fork
import HfsPlus.Volume

/-!
# Forks: byte streams in runs of blocks

A fork knows where its first runs lie from its own data; where it has more, the
runs follow in overflow records, each kept under the first logical block that it
maps. Records are fetched only when a block beyond the known runs is needed, and
what was fetched stays known, even if a later step fails.

A fork is read run by run: the position is turned into a block, the block into
its place on the volume, and as much of the run as is wanted is read in one go.
No block at or past the end of the fork's allocation is looked up, whatever the
extents map, but a run that starts before that end is used up to its own.

The operations that may fetch records work in any monad `m`, in which the source
of the records lives; the fork itself is passed along as a state.
-/

namespace HfsPlus

/-- Where the overflow records of forks are found: by file, fork and first logical
block. -/
def OverflowSource (m : Type → Type) : Type :=
  UInt32 → ForkKind → UInt32 → ExceptT Error m (Option ExtentRecord)

/-- For forks that may not have overflow records, as the tree that keeps them. -/
def OverflowSource.none {m : Type → Type} [Monad m] : OverflowSource m :=
  fun _ _ _ => return Option.none

/-- Where a logical block lies on the volume, and how many blocks its extent holds
from there on, itself among them. -/
structure Mapping where
  physicalBlock : Nat
  blocksAvailable : Nat
  available_pos : 0 < blocksAvailable

/-- A fork and the extents of it that are known so far. -/
structure Fork where
  fileId : UInt32
  kind : ForkKind
  /-- The length of the stream in bytes. -/
  logicalSize : Nat
  /-- The blocks given to the fork. -/
  totalBlocks : Nat
  blockSize : Nat
  extents : ExtentList
  /-- How many overflow records were added to the extents. -/
  overflowRecords : Nat

/-- Append the runs in use of eight to some extents. -/
def ExtentList.addRecord (extents : ExtentList) (record : ExtentRecord) : ExtentList :=
  record.used.foldl (fun extents run => extents.add run.startBlock.toNat run.blockCount.toNat)
    extents

namespace Fork

/-- A fork of which only its own data is known. -/
def ofData (data : ForkData) (kind : ForkKind) (fileId : UInt32) (blockSize : Nat) : Fork where
  fileId := fileId
  kind := kind
  logicalSize := data.logicalSize.toNat
  totalBlocks := data.totalBlocks.toNat
  blockSize := blockSize
  extents := ExtentList.addRecord [] data.extents
  overflowRecords := 0

/-- The first logical block that no known extent maps. -/
def mappedBlocks (fork : Fork) : Nat := fork.extents.mappedBlocks

/-- Whether every block of the fork is known. -/
def isFullyMapped (fork : Fork) : Bool := fork.totalBlocks ≤ fork.mappedBlocks

/-- The error of needing a block that no extent maps. -/
def unmapped (fork : Fork) (block : Nat) : Error := .unmappedBlock fork.fileId fork.kind block

/-- Where a block lies, as far as the known extents say. -/
def mapping? (fork : Fork) (block : Nat) : Option Mapping :=
  match found : fork.extents.lookup block with
  | none => none
  | some (physical, available) => some ⟨physical, available, ExtentList.lookup_pos found⟩

section Overflow

variable {m : Type → Type} [Monad m] [Logging m]

/-- Run something beside the fork that is passed along. -/
def beside {α : Type} (action : ExceptT Error m α) : ExceptT Error (StateT Fork m) α :=
  ExceptT.mk (StateT.lift action.run)

/-- Fetch the overflow record of the first unmapped block and append its runs.
False means that there is no such record, or that it maps nothing; then the fork
stays as it is. A record is kept under a 32-bit block number, so a block beyond
has none. -/
def extend (overflow : OverflowSource m) : ExceptT Error (StateT Fork m) Bool := do
  let fork ← getThe Fork
  let next := fork.mappedBlocks
  if UInt32.size ≤ next then return false
  match ← beside (overflow fork.fileId fork.kind (UInt32.ofNat next)) with
  | none =>
    log (.noOverflowRecord fork.fileId fork.kind next fork.totalBlocks)
    return false
  | some record =>
    if record.used.isEmpty then return false
    let extents := ExtentList.addRecord fork.extents record
    set { fork with extents := extents, overflowRecords := fork.overflowRecords + 1 }
    log (.overflowLoaded fork.fileId fork.kind next extents.mappedBlocks)
    return true

/-- Look a block up, fetching records until it is found or there are no more. Each
record maps at least one block more, so `left` records suffice when no more blocks
than that are unmapped. -/
def resolveWithin (overflow : OverflowSource m) (block : Nat) :
    (left : Nat) → ExceptT Error (StateT Fork m) (Option Mapping)
  | 0 => return (← getThe Fork).mapping? block
  | left + 1 => do
    let fork ← getThe Fork
    if let some mapping := fork.mapping? block then return some mapping
    if fork.isFullyMapped then return none
    if ← extend overflow then resolveWithin overflow block left
    else return none

/-- Where a block lies, fetching overflow records as needed. There is no answer
for a block past the fork's allocation or one that no record maps. -/
def resolve (overflow : OverflowSource m) (block : Nat) :
    ExceptT Error (StateT Fork m) (Option Mapping) := do
  let fork ← getThe Fork
  if fork.totalBlocks ≤ block then return none
  resolveWithin overflow block (fork.totalBlocks - fork.mappedBlocks)

/-- Fetch records until every block is known, `left` of them at most. -/
def loadWithin (overflow : OverflowSource m) : (left : Nat) → ExceptT Error (StateT Fork m) Nat
  | 0 => return (← getThe Fork).overflowRecords
  | left + 1 => do
    let fork ← getThe Fork
    if fork.isFullyMapped then return fork.overflowRecords
    if ← extend overflow then loadWithin overflow left
    else throw (fork.unmapped fork.mappedBlocks)

/-- Fetch every overflow record, and count those fetched ever. It fails with the
first block that no record maps. -/
def loadAll (overflow : OverflowSource m) : ExceptT Error (StateT Fork m) Nat := do
  let fork ← getThe Fork
  loadWithin overflow (fork.totalBlocks - fork.mappedBlocks)

end Overflow

section Reading

variable {n : Type → Type} [Monad n] [Logging n]

/-- Read `left` bytes from `position` on, run by run. A run ends where its extent
does, and never before the position it was looked up for. -/
def readRuns (window : Window) (blockSize : Nat) (sized : 0 < blockSize)
    (locate : Nat → ExceptT Error n Mapping) (position left : Nat) : ExceptT Error n Bytes :=
  if left = 0 then return []
  else do
    let within := position % blockSize
    let mapping ← locate (position / blockSize)
    let run := mapping.blocksAvailable * blockSize - within
    let count := min left run
    let bytes ← window.readExact (mapping.physicalBlock * blockSize + within) count
    let rest ← readRuns window blockSize sized locate (position + count) (left - count)
    return bytes ++ rest
termination_by left
decreasing_by
  have inside := Nat.mod_lt position sized
  have whole := Nat.le_mul_of_pos_left blockSize mapping.available_pos
  omega

/-- Read up to `wanted` bytes of a stream of `logicalSize` bytes. A read at or past
the end, or of a stream in blocks without size, gives nothing. -/
def readStream (window : Window) (blockSize logicalSize : Nat)
    (locate : Nat → ExceptT Error n Mapping) (offset wanted : Nat) : ExceptT Error n Bytes :=
  if sized : 0 < blockSize then
    readRuns window blockSize sized locate offset (min wanted (logicalSize - offset))
  else return []

/-- Read up to `wanted` bytes, fetching overflow records on the way. -/
def readRange (window : Window) (overflow : OverflowSource n) (offset wanted : Nat) :
    ExceptT Error (StateT Fork n) Bytes := do
  let fork ← getThe Fork
  let locate (block : Nat) : ExceptT Error (StateT Fork n) Mapping := do
    match ← resolve overflow block with
    | some mapping => return mapping
    | none => throw (fork.unmapped block)
  readStream window fork.blockSize fork.logicalSize locate offset wanted

/-- Read up to `wanted` bytes through the known extents alone. -/
def readMapped (fork : Fork) (window : Window) (offset wanted : Nat) : ExceptT Error n Bytes :=
  let locate (block : Nat) : ExceptT Error n Mapping :=
    match fork.mapping? block with
    | some mapping => if block < fork.totalBlocks then return mapping else throw (fork.unmapped block)
    | none => throw (fork.unmapped block)
  readStream window fork.blockSize fork.logicalSize locate offset wanted

end Reading

end Fork

/-- A fork on its volume whose blocks are all known: the backing of a tree. -/
structure ForkStream where
  window : Window
  fork : Fork

namespace ForkStream

variable {m : Type → Type} [Monad m] [Logging m]

/-- Make a fork ready for reading by fetching all its overflow records. -/
def ofFork (window : Window) (fork : Fork) (overflow : OverflowSource m) :
    ExceptT Error m ForkStream :=
  ExceptT.mk do
    let (outcome, fork) ← (Fork.loadAll overflow).run.run fork
    return outcome.map fun _ => ⟨window, fork⟩

/-- The length of the stream in bytes. -/
def length (stream : ForkStream) : Nat := stream.fork.logicalSize

/-- Read exactly `wanted` bytes, or fail with how many there were. -/
def readExact (stream : ForkStream) (offset wanted : Nat) : ExceptT Error m Bytes := do
  let bytes ← stream.fork.readMapped stream.window offset wanted
  if bytes.length = wanted then return bytes
  else throw (.shortRead offset wanted bytes.length)

end ForkStream

end HfsPlus
