import HfsPlus.Layout

/-!
# Extents and forks as stored

A fork is a byte stream of a file. Its data structure holds the first eight runs
of allocation blocks that carry it; further runs are kept in the extents overflow
tree, in records of eight runs as well. The first run without blocks ends the
runs in use.
-/

namespace HfsPlus

/-- A run of allocation blocks. A run that is not in use is all zero. -/
structure ExtentDescriptor where
  startBlock : UInt32
  blockCount : UInt32
  deriving DecidableEq, Repr

/-- The fields of `ExtentDescriptor` in the order in which they are stored. -/
def ExtentDescriptor.layout : Layout ExtentDescriptor :=
  .record "ExtentDescriptor"
    (.field "start_block" .word <| .field "block_count" .word <| .done)
    (fun (startBlock, blockCount, ()) => ⟨startBlock, blockCount⟩)
    (fun ⟨startBlock, blockCount⟩ => (startBlock, blockCount, ()))
    (fun _ => rfl) (fun _ => rfl)

instance : Stored ExtentDescriptor := ⟨ExtentDescriptor.layout⟩

/-- Eight runs: those inside a fork's data, or one record of the overflow tree. -/
abbrev ExtentRecord := Vector ExtentDescriptor 8

/-- The runs in use: those before the first without blocks. -/
def ExtentRecord.used (record : ExtentRecord) : List ExtentDescriptor :=
  record.toList.takeWhile fun extent => extent.blockCount ≠ 0

/-- How eight runs are stored. -/
def ExtentRecord.layout : Layout ExtentRecord := .array 8 ExtentDescriptor.layout

instance : Stored ExtentRecord := ⟨ExtentRecord.layout⟩

/-- Where a fork lies and how long it is. -/
structure ForkData where
  /-- The length of the stream in bytes. -/
  logicalSize : UInt64
  clumpSize : UInt32
  /-- The blocks given to the fork, in all its runs. -/
  totalBlocks : UInt32
  extents : ExtentRecord
  deriving DecidableEq, Repr

/-- The fields of `ForkData` in the order in which they are stored. -/
def ForkData.layout : Layout ForkData :=
  .record "ForkData"
    (.field "logical_size" .word <| .field "clump_size" .word <| .field "total_blocks" .word <|
      .field "extents" ExtentRecord.layout <| .done)
    (fun (logicalSize, clumpSize, totalBlocks, extents, ()) => ⟨logicalSize, clumpSize,
      totalBlocks, extents⟩)
    (fun ⟨logicalSize, clumpSize, totalBlocks, extents⟩ => (logicalSize, clumpSize, totalBlocks,
      extents, ()))
    (fun _ => rfl) (fun _ => rfl)

instance : Stored ForkData := ⟨ForkData.layout⟩

/-- Nothing stored and nothing given: the file has no such fork. -/
def ForkData.isEmpty (data : ForkData) : Bool :=
  data.logicalSize == 0 && data.totalBlocks == 0

end HfsPlus
