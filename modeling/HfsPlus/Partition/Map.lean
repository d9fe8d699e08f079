import HfsPlus.Partition.Stored
import HfsPlus.Structure.Fork
import HfsPlus.Text.Octets
import HfsPlus.Text.Units
import HfsPlus.Volume

/-!
# Finding partitions

Three kinds of partition map are read, just far enough to find the partitions:
a GUID table first, because such a disk also has a protective boot record, then
an Apple map, then a boot record.

The maps differ in what they do with entries that make no sense. A GUID entry
must lie wholly inside a disk whose length is known and is left out otherwise;
entries of the other two maps are taken as they are. No more than 1024 entries
are ever considered.
-/

namespace HfsPlus

/-- A partition, located from the start of its disk in bytes. -/
structure PartitionEntry where
  scheme : PartitionScheme
  /-- The number of the entry in its map, counted from one. -/
  index : Nat
  offset : Nat
  length : Nat
  name : String
  typeName : String
  /-- Whether the type says that the partition holds an HFS+ volume. -/
  isHfs : Bool
  deriving DecidableEq, Repr

/-- The entries of a map and the kind of the map. -/
structure PartitionMap where
  scheme : PartitionScheme
  entries : List PartitionEntry
  deriving DecidableEq, Repr

namespace Partition

variable {m : Type → Type} [Monad m] [Logging m]

/-- No more entries than this are considered, whatever a map claims. -/
def maxEntries : Nat := 1024

/-- Read a fixed structure from bytes that hold at least all of it. -/
def decode {α : Type} (order : ByteOrder) (layout : Layout α) (bytes : Bytes) : Except Error α :=
  match layout.decode order bytes with
  | some (value, _) => .ok value
  | none => .error .undecodable

/-- An entry of an Apple map as a partition. -/
def AppleEntry.partition (entry : AppleEntry) (index blockSize : Nat) : PartitionEntry :=
  let typeName := Text.Octets.decodeField entry.typeName.toList
  { scheme := .applePartitionMap
    index := index
    offset := entry.startBlock.toNat * blockSize
    length := entry.blockCount.toNat * blockSize
    name := Text.Octets.decodeField entry.name.toList
    typeName := typeName
    isHfs := typeName == "Apple_HFS" || typeName == "Apple_HFSX" }

/-- The entries of an Apple map from map block `index` on, of which `left` more
may be considered. Each entry says anew how many there are, and the last word
counts: `claimed` is what the entry before said. The first block that is no entry
ends the map. -/
def appleEntries (window : Window) (blockSize : Nat) :
    (left index claimed : Nat) → ExceptT Error m (List PartitionEntry)
  | 0, _, _ => return []
  | left + 1, index, claimed => do
    if claimed < index then return []
    let some block ← window.readWhole? (index * blockSize) 512 | return []
    let entry ← decode .bigEndian AppleEntry.layout block
    if entry.signature ≠ 0x504D then return []
    let later ← appleEntries window blockSize left (index + 1) entry.mapEntries.toNat
    return entry.partition index blockSize :: later

/-- The Apple map of a disk, if it has one with at least one entry. -/
def readApple (window : Window) : ExceptT Error m (Option (List PartitionEntry)) := do
  let some block ← window.readWhole? 0 512 | return none
  let descriptor ← decode .bigEndian DriverDescriptor.layout block
  if descriptor.signature ≠ 0x4552 then return none
  let blockSize := if descriptor.blockSize = 0 then 512 else descriptor.blockSize.toNat
  let entries ← appleEntries window blockSize maxEntries 1 1
  return if entries.isEmpty then none else some entries

/-- Where a GUID entry lies, start and length in bytes. There is none if the last
sector comes before the first, if a position would not fit 64 bits, or if the end
lies past a disk of known length. -/
def guidExtent (first last sectorSize : Nat) (diskLength : Option Nat) : Option (Nat × Nat) :=
  let start := first * sectorSize
  let length := (last - first + 1) * sectorSize
  if last < first then none
  else if positionBound ≤ last - first + 1 then none
  else if positionBound ≤ start + length then none
  else
    match diskLength with
    | some disk => if disk < start + length then none else some (start, length)
    | none => some (start, length)

/-- A byte in two upper-case hexadecimal digits. -/
def upperHex (byte : UInt8) : String := (Bytes.hex [byte]).map Char.toUpper

/-- The text of a GUID. Its first three groups are stored least significant byte
first. -/
def guidText (guid : Vector UInt8 16) : String :=
  let group (places : List (Fin 16)) : String := String.join (places.map fun i => upperHex guid[i])
  "-".intercalate [group [3, 2, 1, 0], group [5, 4], group [7, 6], group [8, 9],
    group [10, 11, 12, 13, 14, 15]]

/-- The type of an HFS+ partition. -/
def guidHfsPlus : String := "48465300-0000-11AA-AA11-00306543ECAC"

/-- A GUID entry as a partition. -/
def GuidEntry.partition (entry : GuidEntry) (index offset length : Nat) : PartitionEntry :=
  let typeName := guidText entry.typeGuid
  { scheme := .guidPartitionTable
    index := index
    offset := offset
    length := length
    name := String.ofList (Text.Units.decode (entry.name.toList.takeWhile (· ≠ 0)))
    typeName := typeName
    isHfs := typeName == guidHfsPlus }

/-- The entries of a GUID table from slot `slot` on, `left` more of them. An entry
whose type is zero is free; a slot that cannot be read ends the table. -/
def guidEntries (window : Window) (sectorSize table entrySize : Nat) :
    (left slot : Nat) → ExceptT Error m (List PartitionEntry)
  | 0, _ => return []
  | left + 1, slot => do
    let offset := table + slot * entrySize
    if positionBound ≤ offset then return []
    let some block ← window.readWhole? offset 128 | return []
    let entry ← decode .littleEndian GuidEntry.layout block
    if entry.typeGuid.toList.all (· == 0) then
      guidEntries window sectorSize table entrySize left (slot + 1)
    else
      match guidExtent entry.firstLba.toNat entry.lastLba.toNat sectorSize window.length with
      | none =>
        log (.entryOutsideDisk (slot + 1) entry.firstLba.toNat entry.lastLba.toNat)
        guidEntries window sectorSize table entrySize left (slot + 1)
      | some (start, length) =>
        let later ← guidEntries window sectorSize table entrySize left (slot + 1)
        return entry.partition (slot + 1) start length :: later

/-- The signature of a GUID table: `EFI PART`. -/
def guidSignature : Bytes := [0x45, 0x46, 0x49, 0x20, 0x50, 0x41, 0x52, 0x54]

/-- The GUID table of a disk, if it has one, even one without entries. -/
def readGuid (window : Window) (sectorSize : Nat) :
    ExceptT Error m (Option (List PartitionEntry)) := do
  let some block ← window.readWhole? sectorSize 92 | return none
  let header ← decode .littleEndian GuidHeader.layout block
  if header.signature.toList ≠ guidSignature || header.entrySize < 128 then return none
  let table := header.entriesLba.toNat * sectorSize
  if positionBound ≤ table then
    log (.tableBeyondDisk header.entriesLba.toNat)
    return none
  let count := min header.entryCount.toNat maxEntries
  some <$> guidEntries window sectorSize table header.entrySize.toNat count 0

/-- The type of the entry that only protects a GUID table. -/
def bootProtective : UInt8 := 0xEE

/-- The type of an HFS+ partition in a boot record. -/
def bootHfs : UInt8 := 0xAF

/-- The entries of a boot record from slot `slot` on, or none if one of them only
protects a GUID table. -/
def bootEntries (block : Bytes) (sectorSize : Nat) :
    (left slot : Nat) → Except Error (Option (List PartitionEntry))
  | 0, _ => return some []
  | left + 1, slot => do
    let entry ← decode .littleEndian BootEntry.layout (block.drop (446 + slot * 16))
    if entry.partitionType = 0 || entry.sectorCount = 0 then
      bootEntries block sectorSize left (slot + 1)
    else if entry.partitionType = bootProtective then return none
    else
      let later ← bootEntries block sectorSize left (slot + 1)
      return later.map fun later =>
        { scheme := .masterBootRecord
          index := slot + 1
          offset := entry.lbaStart.toNat * sectorSize
          length := entry.sectorCount.toNat * sectorSize
          name := ""
          typeName := Text.hexPadded 4 entry.partitionType.toNat
          isHfs := entry.partitionType == bootHfs } :: later

/-- The boot record of a disk, if it has one with at least one entry in use. -/
def readBoot (window : Window) (sectorSize : Nat) :
    ExceptT Error m (Option (List PartitionEntry)) := do
  let some block ← window.readWhole? 0 512 | return none
  if block.drop 510 ≠ [0x55, 0xAA] then return none
  let entries ← bootEntries block sectorSize 4 0
  return entries.filter fun entries => !entries.isEmpty

end Partition

/-- The partition map of a volume, if it has one. -/
def Volume.partitionMap? {m : Type → Type} [Monad m] [Logging m] (volume : Volume) :
    ExceptT Error m (Option PartitionMap) := do
  let window := volume.window
  if let some entries ← Partition.readGuid window volume.sectorSize then
    return some ⟨.guidPartitionTable, entries⟩
  if let some entries ← Partition.readApple window then
    return some ⟨.applePartitionMap, entries⟩
  if let some entries ← Partition.readBoot window volume.sectorSize then
    return some ⟨.masterBootRecord, entries⟩
  return none

/-- The part of a disk that an entry of its map describes. -/
def PartitionEntry.cut (entry : PartitionEntry) (disk : Volume) : Volume :=
  disk.sub entry.offset entry.length
    (.partition entry.scheme entry.index entry.name entry.typeName)

/-- Attach the partitions of a disk behind what is attached already, and count
them. -/
def Disk.loadPartitions {m : Type → Type} [Monad m] [Logging m] (disk : Disk) :
    ExceptT Error m (Disk × Nat) := do
  match ← disk.volume.partitionMap? with
  | none => return (disk, 0)
  | some map =>
    log (.mapFound map.scheme.label map.entries.length)
    let parts := map.entries.map (·.cut disk.volume)
    return ({ disk with children := disk.children ++ parts }, map.entries.length)

end HfsPlus
