import HfsPlus.Error

/-!
# Maps from logical to physical blocks

An extent says that consecutive logical blocks of a fork lie in consecutive
allocation blocks of the volume. A list of extents is kept in logical order and
without overlap, so it is a partial map from logical to physical blocks: `lookup`
reads it, `add` extends it at its end and `insert` anywhere that is still free.

Block numbers are natural numbers here. On a volume they stay far below the
64-bit bound, because a fork has at most `2 ^ 32` blocks.
-/

namespace HfsPlus

/-- Consecutive logical blocks in consecutive allocation blocks. -/
structure Extent where
  logicalStart : Nat
  startBlock : Nat
  blockCount : Nat
  deriving DecidableEq, Repr

/-- The first logical block after the extent. -/
def Extent.logicalEnd (extent : Extent) : Nat := extent.logicalStart + extent.blockCount

/-- Whether the extent holds a logical block. -/
def Extent.contains (extent : Extent) (block : Nat) : Bool :=
  extent.logicalStart ≤ block && block < extent.logicalStart + extent.blockCount

/-- An extent contains the blocks from its first one to its end. -/
theorem Extent.contains_iff (extent : Extent) (block : Nat) :
    extent.contains block = true ↔
      extent.logicalStart ≤ block ∧ block < extent.logicalStart + extent.blockCount := by
  simp [Extent.contains]

/-- Extents in logical order that do not overlap. -/
abbrev ExtentList := List Extent

namespace ExtentList

/-- The first logical block after the last extent. -/
def mappedBlocks (extents : ExtentList) : Nat :=
  match extents.getLast? with
  | none => 0
  | some last => last.logicalEnd

/-- Append a run directly after the last mapped block. An empty run changes
nothing. -/
def add (extents : ExtentList) (startBlock blockCount : Nat) : ExtentList :=
  if blockCount = 0 then extents
  else extents ++ [⟨mappedBlocks extents, startBlock, blockCount⟩]

/-- Append a run as `add` does, and say whether there was anything to append. -/
def push (extents : ExtentList) (startBlock blockCount : Nat) : Bool × ExtentList :=
  (blockCount != 0, add extents startBlock blockCount)

/-- Split the list where an extent that starts at `block` would go: what starts
before it, and the rest. -/
def splitBefore (extents : ExtentList) (block : Nat) : ExtentList × ExtentList :=
  extents.span fun extent => extent.logicalStart < block

/-- Place a run at a logical block. A run that would overlap an extent is refused,
and an empty one changes nothing. -/
def insert (extents : ExtentList) (logicalStart startBlock blockCount : Nat) :
    Except Error ExtentList :=
  if blockCount = 0 then .ok extents
  else
    let (before, after) := splitBefore extents logicalStart
    let overlapsBefore := before.getLast?.any fun extent => logicalStart < extent.logicalEnd
    let overlapsAfter := after.head?.any fun extent =>
      extent.logicalStart < logicalStart + blockCount
    if overlapsBefore || overlapsAfter then
      .error (.invalid (.extentOverlap logicalStart blockCount))
    else .ok (before ++ ⟨logicalStart, startBlock, blockCount⟩ :: after)

/-- Where a logical block lies, and how many blocks are left in its extent from
there on. Only the last extent that starts at or before the block can hold it. -/
def lookup (extents : ExtentList) (block : Nat) : Option (Nat × Nat) :=
  match (extents.takeWhile fun extent => extent.logicalStart ≤ block).getLast? with
  | none => none
  | some extent =>
    if extent.contains block then
      let skipped := block - extent.logicalStart
      some (extent.startBlock + skipped, extent.blockCount - skipped)
    else none

/-- Whether each extent starts where the one before it ends, the first of them at
`start`. -/
def contiguousFrom : (start : Nat) → ExtentList → Bool
  | _, [] => true
  | start, extent :: rest =>
    extent.logicalStart == start && contiguousFrom extent.logicalEnd rest

/-- Whether the extents hold every block up to the last one they map. -/
def isContiguous (extents : ExtentList) : Bool := contiguousFrom 0 extents

/-- A block that is found has at least itself left in its extent. -/
theorem lookup_pos {extents : ExtentList} {block physical available : Nat}
    (found : lookup extents block = some (physical, available)) : 0 < available := by
  unfold lookup at found
  split at found
  · simp at found
  · rename_i extent last
    by_cases inside : extent.contains block = true
    · simp only [inside, if_true, Option.some.injEq, Prod.mk.injEq] at found
      have bounds := (extent.contains_iff block).mp inside
      omega
    · simp [inside] at found

end ExtentList

end HfsPlus
