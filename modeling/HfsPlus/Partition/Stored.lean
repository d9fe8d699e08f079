import HfsPlus.Layout

/-!
# Partition maps as stored

The fixed structures of the three partition maps. The Apple map is written most
significant byte first, the other two least significant byte first.
-/

namespace HfsPlus.Partition

/-- The first block of a disk with an Apple map. -/
structure DriverDescriptor where
  signature : UInt16
  /-- The size of a map block; zero stands for 512. -/
  blockSize : UInt16
  blockCount : UInt32
  deriving DecidableEq, Repr

/-- The fields of `DriverDescriptor` in the order in which they are stored. -/
def DriverDescriptor.layout : Layout DriverDescriptor :=
  .record "DriverDescriptor"
    (.field "signature" .word <| .field "block_size" .word <| .field "block_count" .word <| .done)
    (fun (signature, blockSize, blockCount, ()) => ⟨signature, blockSize, blockCount⟩)
    (fun ⟨signature, blockSize, blockCount⟩ => (signature, blockSize, blockCount, ()))
    (fun _ => rfl) (fun _ => rfl)

/-- One entry of an Apple map, a block of its own. -/
structure AppleEntry where
  signature : UInt16
  reserved : UInt16
  /-- How many entries the map has. -/
  mapEntries : UInt32
  startBlock : UInt32
  blockCount : UInt32
  name : Vector UInt8 32
  typeName : Vector UInt8 32
  deriving DecidableEq, Repr

/-- The fields of `AppleEntry` in the order in which they are stored. -/
def AppleEntry.layout : Layout AppleEntry :=
  .record "AppleEntry"
    (.field "signature" .word <| .field "reserved" .word <| .field "map_entries" .word <|
      .field "start_block" .word <| .field "block_count" .word <|
      .field "name" (.array 32 .word) <| .field "type_name" (.array 32 .word) <| .done)
    (fun (signature, reserved, mapEntries, startBlock, blockCount, name, typeName, ()) =>
      ⟨signature, reserved, mapEntries, startBlock, blockCount, name, typeName⟩)
    (fun ⟨signature, reserved, mapEntries, startBlock, blockCount, name, typeName⟩ => (signature,
      reserved, mapEntries, startBlock, blockCount, name, typeName, ()))
    (fun _ => rfl) (fun _ => rfl)

/-- The header of a GUID table, in the second sector. -/
structure GuidHeader where
  signature : Vector UInt8 8
  revision : UInt32
  headerSize : UInt32
  headerCrc : UInt32
  reserved : UInt32
  currentLba : UInt64
  backupLba : UInt64
  firstUsableLba : UInt64
  lastUsableLba : UInt64
  diskGuid : Vector UInt8 16
  /-- The sector where the entries start. -/
  entriesLba : UInt64
  entryCount : UInt32
  entrySize : UInt32
  entriesCrc : UInt32
  deriving DecidableEq, Repr

/-- The fields of `GuidHeader` in the order in which they are stored. -/
def GuidHeader.layout : Layout GuidHeader :=
  .record "GuidHeader"
    (.field "signature" (.array 8 .word) <| .field "revision" .word <|
      .field "header_size" .word <| .field "header_crc" .word <| .field "reserved" .word <|
      .field "current_lba" .word <| .field "backup_lba" .word <|
      .field "first_usable_lba" .word <| .field "last_usable_lba" .word <|
      .field "disk_guid" (.array 16 .word) <| .field "entries_lba" .word <|
      .field "entry_count" .word <| .field "entry_size" .word <| .field "entries_crc" .word <|
      .done)
    (fun (signature, revision, headerSize, headerCrc, reserved, currentLba, backupLba,
      firstUsableLba, lastUsableLba, diskGuid, entriesLba, entryCount, entrySize, entriesCrc, ())
      => ⟨signature, revision, headerSize, headerCrc, reserved, currentLba, backupLba,
      firstUsableLba, lastUsableLba, diskGuid, entriesLba, entryCount, entrySize, entriesCrc⟩)
    (fun ⟨signature, revision, headerSize, headerCrc, reserved, currentLba, backupLba,
      firstUsableLba, lastUsableLba, diskGuid, entriesLba, entryCount, entrySize, entriesCrc⟩ =>
      (signature, revision, headerSize, headerCrc, reserved, currentLba, backupLba,
      firstUsableLba, lastUsableLba, diskGuid, entriesLba, entryCount, entrySize, entriesCrc,
      ()))
    (fun _ => rfl) (fun _ => rfl)

/-- One entry of a GUID table. -/
structure GuidEntry where
  typeGuid : Vector UInt8 16
  uniqueGuid : Vector UInt8 16
  firstLba : UInt64
  /-- The last sector of the partition, which belongs to it. -/
  lastLba : UInt64
  attributes : UInt64
  name : Vector UInt16 36
  deriving DecidableEq, Repr

/-- The fields of `GuidEntry` in the order in which they are stored. -/
def GuidEntry.layout : Layout GuidEntry :=
  .record "GuidEntry"
    (.field "type_guid" (.array 16 .word) <| .field "unique_guid" (.array 16 .word) <|
      .field "first_lba" .word <| .field "last_lba" .word <| .field "attributes" .word <|
      .field "name" (.array 36 .word) <| .done)
    (fun (typeGuid, uniqueGuid, firstLba, lastLba, attributes, name, ()) => ⟨typeGuid,
      uniqueGuid, firstLba, lastLba, attributes, name⟩)
    (fun ⟨typeGuid, uniqueGuid, firstLba, lastLba, attributes, name⟩ => (typeGuid, uniqueGuid,
      firstLba, lastLba, attributes, name, ()))
    (fun _ => rfl) (fun _ => rfl)

/-- One of the four entries of a boot record. -/
structure BootEntry where
  status : UInt8
  chsFirst : Vector UInt8 3
  partitionType : UInt8
  chsLast : Vector UInt8 3
  lbaStart : UInt32
  sectorCount : UInt32
  deriving DecidableEq, Repr

/-- The fields of `BootEntry` in the order in which they are stored. -/
def BootEntry.layout : Layout BootEntry :=
  .record "BootEntry"
    (.field "status" .word <| .field "chs_first" (.array 3 .word) <|
      .field "partition_type" .word <| .field "chs_last" (.array 3 .word) <|
      .field "lba_start" .word <| .field "sector_count" .word <| .done)
    (fun (status, chsFirst, partitionType, chsLast, lbaStart, sectorCount, ()) => ⟨status,
      chsFirst, partitionType, chsLast, lbaStart, sectorCount⟩)
    (fun ⟨status, chsFirst, partitionType, chsLast, lbaStart, sectorCount⟩ => (status, chsFirst,
      partitionType, chsLast, lbaStart, sectorCount, ()))
    (fun _ => rfl) (fun _ => rfl)

end HfsPlus.Partition
