import HfsPlus.Code
import HfsPlus.Structure.Fork

/-!
# The header blocks of a volume

The volume header of an HFS+ volume and the master directory block of the older
system both lie 1024 bytes into the volume. The older one may say that an HFS+
volume is embedded in its allocation blocks. The journal info block says where a
journaled volume keeps its journal.
-/

namespace HfsPlus

/-- Where the header block of a volume starts. -/
def volumeHeaderOffset : Nat := 1024

/-- How many bytes of the header block are read. -/
def volumeHeaderSize : Nat := 512

/-- Four characters packed into a word, as types and creators are; what does not
show is a point. -/
def fourCharacters (code : UInt32) : String :=
  String.ofList ((Word.bytes code).map fun byte =>
    if 0x20 ≤ byte.toNat && byte.toNat < 0x7F then Char.ofNat byte.toNat else '.')

/-- The description of an HFS+ volume. -/
structure VolumeHeader where
  signature : UInt16
  version : UInt16
  attributes : UInt32
  lastMountedVersion : UInt32
  journalInfoBlock : UInt32
  createDate : UInt32
  modifyDate : UInt32
  backupDate : UInt32
  checkedDate : UInt32
  fileCount : UInt32
  folderCount : UInt32
  blockSize : UInt32
  totalBlocks : UInt32
  freeBlocks : UInt32
  nextAllocation : UInt32
  rsrcClumpSize : UInt32
  dataClumpSize : UInt32
  nextCatalogId : UInt32
  writeCount : UInt32
  encodingsBitmap : UInt64
  finderInfo : Vector UInt32 8
  allocationFile : ForkData
  extentsFile : ForkData
  catalogFile : ForkData
  attributesFile : ForkData
  startupFile : ForkData
  deriving DecidableEq, Repr

/-- The fields of `VolumeHeader` in the order in which they are stored. -/
def VolumeHeader.layout : Layout VolumeHeader :=
  .record "VolumeHeader"
    (.field "signature" .word <| .field "version" .word <| .field "attributes" .word <|
      .field "last_mounted_version" .word <| .field "journal_info_block" .word <|
      .field "create_date" .word <| .field "modify_date" .word <| .field "backup_date" .word <|
      .field "checked_date" .word <| .field "file_count" .word <| .field "folder_count" .word <|
      .field "block_size" .word <| .field "total_blocks" .word <| .field "free_blocks" .word <|
      .field "next_allocation" .word <| .field "rsrc_clump_size" .word <|
      .field "data_clump_size" .word <| .field "next_catalog_id" .word <|
      .field "write_count" .word <| .field "encodings_bitmap" .word <|
      .field "finder_info" (.array 8 .word) <| .field "allocation_file" ForkData.layout <|
      .field "extents_file" ForkData.layout <| .field "catalog_file" ForkData.layout <|
      .field "attributes_file" ForkData.layout <| .field "startup_file" ForkData.layout <| .done)
    (fun (signature, version, attributes, lastMountedVersion, journalInfoBlock, createDate,
      modifyDate, backupDate, checkedDate, fileCount, folderCount, blockSize, totalBlocks,
      freeBlocks, nextAllocation, rsrcClumpSize, dataClumpSize, nextCatalogId, writeCount,
      encodingsBitmap, finderInfo, allocationFile, extentsFile, catalogFile, attributesFile,
      startupFile, ()) => ⟨signature, version, attributes, lastMountedVersion, journalInfoBlock,
      createDate, modifyDate, backupDate, checkedDate, fileCount, folderCount, blockSize,
      totalBlocks, freeBlocks, nextAllocation, rsrcClumpSize, dataClumpSize, nextCatalogId,
      writeCount, encodingsBitmap, finderInfo, allocationFile, extentsFile, catalogFile,
      attributesFile, startupFile⟩)
    (fun ⟨signature, version, attributes, lastMountedVersion, journalInfoBlock, createDate,
      modifyDate, backupDate, checkedDate, fileCount, folderCount, blockSize, totalBlocks,
      freeBlocks, nextAllocation, rsrcClumpSize, dataClumpSize, nextCatalogId, writeCount,
      encodingsBitmap, finderInfo, allocationFile, extentsFile, catalogFile, attributesFile,
      startupFile⟩ => (signature, version, attributes, lastMountedVersion, journalInfoBlock,
      createDate, modifyDate, backupDate, checkedDate, fileCount, folderCount, blockSize,
      totalBlocks, freeBlocks, nextAllocation, rsrcClumpSize, dataClumpSize, nextCatalogId,
      writeCount, encodingsBitmap, finderInfo, allocationFile, extentsFile, catalogFile,
      attributesFile, startupFile, ()))
    (fun _ => rfl) (fun _ => rfl)

instance : Stored VolumeHeader := ⟨VolumeHeader.layout⟩

/-- The system that last mounted the volume, by its four characters. -/
def VolumeHeader.lastMountedBy (header : VolumeHeader) : String :=
  fourCharacters header.lastMountedVersion

/-- The bit of the volume attributes that says there is a journal. -/
def journaledBit : UInt32 := 0x2000

/-- The bits of the volume attributes that are named, lowest first. -/
def volumeAttributeBits : List (UInt32 × String) :=
  [(0x80, "hardware-lock"), (0x100, "unmounted"), (0x200, "spared-blocks"),
    (0x400, "no-cache-required"), (0x800, "inconsistent"), (0x1000, "cnids-reused"),
    (0x2000, "journaled"), (0x8000, "software-lock")]

/-- The names of the bits that are set. -/
def volumeAttributeNames (attributes : UInt32) : List String :=
  (volumeAttributeBits.filter fun (bit, _) => attributes &&& bit != 0).map (·.2)

/-- Seconds since 1970 for a date counted from 1904; zero is no date. -/
def unixTime (date : UInt32) : Option Int :=
  if date == 0 then none else some ((date.toNat : Int) - 2082844800)

/-- A run of allocation blocks of the older system. -/
structure ClassicExtent where
  startBlock : UInt16
  blockCount : UInt16
  deriving DecidableEq, Repr

/-- The fields of `ClassicExtent` in the order in which they are stored. -/
def ClassicExtent.layout : Layout ClassicExtent :=
  .record "HfsExtentDescriptor"
    (.field "start_block" .word <| .field "block_count" .word <| .done)
    (fun (startBlock, blockCount, ()) => ⟨startBlock, blockCount⟩)
    (fun ⟨startBlock, blockCount⟩ => (startBlock, blockCount, ()))
    (fun _ => rfl) (fun _ => rfl)

instance : Stored ClassicExtent := ⟨ClassicExtent.layout⟩

/-- The description of a volume of the older system. -/
structure MasterDirectoryBlock where
  signature : UInt16
  createDate : UInt32
  modifyDate : UInt32
  attributes : UInt16
  rootFileCount : UInt16
  bitmapStart : UInt16
  allocPtr : UInt16
  allocBlockCount : UInt16
  allocBlockSize : UInt32
  clumpSize : UInt32
  allocBlockStart : UInt16
  nextCatalogId : UInt32
  freeBlocks : UInt16
  /-- A length byte and up to 27 characters. -/
  volumeName : Vector UInt8 28
  backupDate : UInt32
  sequenceNumber : UInt16
  writeCount : UInt32
  extentsClumpSize : UInt32
  catalogClumpSize : UInt32
  rootDirCount : UInt16
  fileCount : UInt32
  dirCount : UInt32
  finderInfo : Vector UInt32 8
  embedSignature : UInt16
  embedExtent : ClassicExtent
  extentsFileSize : UInt32
  extentsFileExtents : Vector ClassicExtent 3
  catalogFileSize : UInt32
  catalogFileExtents : Vector ClassicExtent 3
  deriving DecidableEq, Repr

/-- The fields of `MasterDirectoryBlock` in the order in which they are stored. -/
def MasterDirectoryBlock.layout : Layout MasterDirectoryBlock :=
  .record "MasterDirectoryBlock"
    (.field "signature" .word <| .field "create_date" .word <| .field "modify_date" .word <|
      .field "attributes" .word <| .field "root_file_count" .word <|
      .field "bitmap_start" .word <| .field "alloc_ptr" .word <|
      .field "alloc_block_count" .word <| .field "alloc_block_size" .word <|
      .field "clump_size" .word <| .field "alloc_block_start" .word <|
      .field "next_catalog_id" .word <| .field "free_blocks" .word <|
      .field "volume_name" (.array 28 .word) <| .field "backup_date" .word <|
      .field "sequence_number" .word <| .field "write_count" .word <|
      .field "extents_clump_size" .word <| .field "catalog_clump_size" .word <|
      .field "root_dir_count" .word <| .field "file_count" .word <| .field "dir_count" .word <|
      .field "finder_info" (.array 8 .word) <| .field "embed_signature" .word <|
      .field "embed_extent" ClassicExtent.layout <| .field "extents_file_size" .word <|
      .field "extents_file_extents" (.array 3 ClassicExtent.layout) <|
      .field "catalog_file_size" .word <|
      .field "catalog_file_extents" (.array 3 ClassicExtent.layout) <| .done)
    (fun (signature, createDate, modifyDate, attributes, rootFileCount, bitmapStart, allocPtr,
      allocBlockCount, allocBlockSize, clumpSize, allocBlockStart, nextCatalogId, freeBlocks,
      volumeName, backupDate, sequenceNumber, writeCount, extentsClumpSize, catalogClumpSize,
      rootDirCount, fileCount, dirCount, finderInfo, embedSignature, embedExtent,
      extentsFileSize, extentsFileExtents, catalogFileSize, catalogFileExtents, ()) =>
      ⟨signature, createDate, modifyDate, attributes, rootFileCount, bitmapStart, allocPtr,
      allocBlockCount, allocBlockSize, clumpSize, allocBlockStart, nextCatalogId, freeBlocks,
      volumeName, backupDate, sequenceNumber, writeCount, extentsClumpSize, catalogClumpSize,
      rootDirCount, fileCount, dirCount, finderInfo, embedSignature, embedExtent,
      extentsFileSize, extentsFileExtents, catalogFileSize, catalogFileExtents⟩)
    (fun ⟨signature, createDate, modifyDate, attributes, rootFileCount, bitmapStart, allocPtr,
      allocBlockCount, allocBlockSize, clumpSize, allocBlockStart, nextCatalogId, freeBlocks,
      volumeName, backupDate, sequenceNumber, writeCount, extentsClumpSize, catalogClumpSize,
      rootDirCount, fileCount, dirCount, finderInfo, embedSignature, embedExtent,
      extentsFileSize, extentsFileExtents, catalogFileSize, catalogFileExtents⟩ => (signature,
      createDate, modifyDate, attributes, rootFileCount, bitmapStart, allocPtr, allocBlockCount,
      allocBlockSize, clumpSize, allocBlockStart, nextCatalogId, freeBlocks, volumeName,
      backupDate, sequenceNumber, writeCount, extentsClumpSize, catalogClumpSize, rootDirCount,
      fileCount, dirCount, finderInfo, embedSignature, embedExtent, extentsFileSize,
      extentsFileExtents, catalogFileSize, catalogFileExtents, ()))
    (fun _ => rfl) (fun _ => rfl)

instance : Stored MasterDirectoryBlock := ⟨MasterDirectoryBlock.layout⟩

/-- The name of the volume; a byte that is not ASCII shows as the replacement
character. -/
def MasterDirectoryBlock.name (block : MasterDirectoryBlock) : String :=
  let count := min block.volumeName[0].toNat 27
  String.ofList ((block.volumeName.toList.tail.take count).map fun byte =>
    if byte.toNat < 0x80 then Char.ofNat byte.toNat else Char.ofNat 0xFFFD)

/-- Where the embedded volume starts, in bytes. -/
def MasterDirectoryBlock.embeddedOffset (block : MasterDirectoryBlock) : Nat :=
  block.allocBlockStart.toNat * 512 +
    block.embedExtent.startBlock.toNat * block.allocBlockSize.toNat

/-- How long the embedded volume is, in bytes. -/
def MasterDirectoryBlock.embeddedLength (block : MasterDirectoryBlock) : Nat :=
  block.embedExtent.blockCount.toNat * block.allocBlockSize.toNat

/-- Where a journaled volume keeps its journal. -/
structure JournalInfoBlock where
  flags : UInt32
  deviceSignature : Vector UInt32 8
  offset : UInt64
  size : UInt64
  reserved : Vector UInt32 32
  deriving DecidableEq, Repr

/-- The fields of `JournalInfoBlock` in the order in which they are stored. -/
def JournalInfoBlock.layout : Layout JournalInfoBlock :=
  .record "JournalInfoBlock"
    (.field "flags" .word <| .field "device_signature" (.array 8 .word) <|
      .field "offset" .word <| .field "size" .word <| .field "reserved" (.array 32 .word) <|
      .done)
    (fun (flags, deviceSignature, offset, size, reserved, ()) => ⟨flags, deviceSignature, offset,
      size, reserved⟩)
    (fun ⟨flags, deviceSignature, offset, size, reserved⟩ => (flags, deviceSignature, offset,
      size, reserved, ()))
    (fun _ => rfl) (fun _ => rfl)

instance : Stored JournalInfoBlock := ⟨JournalInfoBlock.layout⟩

end HfsPlus
