import HfsPlus.FileSystem.Basic
import HfsPlus.Report.Style

/-!
# Reports on disks and volumes
-/

namespace HfsPlus.Report

/-- The names of the volume attributes in a report. -/
def volumeAttributes : List (UInt32 × String) :=
  [(0x80, "hardware lock"), (0x100, "unmounted"), (0x200, "spared blocks"),
    (0x400, "no cache required"), (0x800, "inconsistent"), (0x1000, "CNIDs reused"),
    (0x2000, "journaled"), (0x8000, "software lock")]

/-- The header of a volume, and its wrapper if it has one. -/
def volumeHeader (style : Style) (system : FileSystem) : String :=
  let header := system.header
  let wrapper :=
    match system.wrapper with
    | none => ""
    | some wrapper =>
      style.field "HFS wrapper"
        s!"{Text.quoted wrapper.name} at {Text.hex wrapper.offset}, {Text.size wrapper.length}"
  style.heading "Volume header" ++ wrapper ++
    style.fields [
      ("signature", Coded.title system.signature),
      ("version", toString header.version),
      ("attributes", flags header.attributes volumeAttributes),
      ("last mounted by", header.lastMountedBy),
      ("journal info block", toString header.journalInfoBlock),
      ("created", date header.createDate),
      ("modified", date header.modifyDate),
      ("backed up", date header.backupDate),
      ("checked", date header.checkedDate),
      ("files", toString header.fileCount),
      ("folders", toString header.folderCount),
      ("block size", toString header.blockSize),
      ("total blocks", toString header.totalBlocks),
      ("free blocks", toString header.freeBlocks),
      ("capacity", Text.size (header.totalBlocks.toNat * header.blockSize.toNat)),
      ("next allocation", toString header.nextAllocation),
      ("next CNID", toString header.nextCatalogId),
      ("write count", toString header.writeCount),
      ("encodings", Text.hexPadded 18 header.encodingsBitmap.toNat)] ++
    forkData style "allocation file" header.allocationFile ++
    forkData style "extents file" header.extentsFile ++
    forkData style "catalog file" header.catalogFile ++
    forkData style "attributes file" header.attributesFile ++
    forkData style "startup file" header.startupFile

/-- One line for a partition of a disk; other parts have none. -/
def partition (index : Nat) (part : Volume) : String :=
  match part.kind with
  | .partition scheme _ name typeName =>
    let length := (part.length.map Text.size).getD "unbounded"
    "  " ++ Text.padLeft 2 (toString index) ++ "  " ++ Text.padRight 20 scheme.label ++ " " ++
      Text.padRight 24 name ++ " " ++ Text.padRight 38 typeName ++ " offset " ++
      Text.hex part.offset ++ " " ++ length ++ "\n"
  | _ => ""

/-- The partitions of a disk. -/
def partitions (style : Style) (disk : Disk) : String :=
  style.heading "Partitions" ++
    if disk.children.isEmpty then "  no partition map\n"
    else String.join (disk.children.zipIdx.map fun (part, index) => partition index part)

/-- The names of the journal flags. -/
def journalFlags : List (UInt32 × String) :=
  [(1, "in filesystem"), (2, "other device"), (4, "needs init")]

/-- The block that says where the journal is. -/
def journal (style : Style) (info : JournalInfoBlock) : String :=
  style.heading "Journal info block" ++
    style.fields [
      ("flags", flags info.flags journalFlags),
      ("offset", Text.hex info.offset.toNat),
      ("size", Text.size info.size.toNat)]

end HfsPlus.Report
