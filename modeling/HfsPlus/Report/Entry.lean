import HfsPlus.Record.Attribute
import HfsPlus.Record.Catalog
import HfsPlus.Report.Style

/-!
# Reports on folders, files and attributes
-/

namespace HfsPlus.Report

/-- The permissions in a mode, nine characters behind the type character. -/
def modeText (mode : UInt16) : String :=
  let bits := mode.toNat
  let triple (shift : Nat) : List Char :=
    let three := bits >>> shift % 8
    [if three / 4 % 2 = 1 then 'r' else '-', if three / 2 % 2 = 1 then 'w' else '-',
      if three % 2 = 1 then 'x' else '-']
  String.ofList (typeCharacter mode :: [6, 3, 0].flatMap triple)

/-- Owner and permissions. -/
def permissions (style : Style) (info : BsdInfo) : String :=
  style.fields [
    ("owner", s!"{info.ownerId}:{info.groupId}"),
    ("mode", modeText info.fileMode ++ " (" ++ Text.octal info.fileMode.toNat ++ ")"),
    ("flags", "admin " ++ Text.hexPadded 4 info.adminFlags.toNat ++ " owner " ++
      Text.hexPadded 4 info.ownerFlags.toNat)]

/-- A folder. -/
def folder (style : Style) (folder : CatalogFolder) : String :=
  style.fields [
    ("kind", "folder"),
    ("CNID", toString folder.folderId),
    ("valence", toString folder.valence),
    ("subfolders", toString folder.folderCount),
    ("created", date folder.createDate),
    ("content modified", date folder.contentModDate),
    ("accessed", date folder.accessDate)] ++
  permissions style folder.permissions ++
  style.fields [
    ("finder flags", Text.hexPadded 6 folder.userInfo.finderFlags.toNat),
    ("text encoding", toString folder.textEncoding)]

/-- The names of the flags of a file record. -/
def fileFlags : List (UInt32 × String) :=
  [(0x01, "locked"), (0x02, "thread"), (0x04, "attributes"), (0x08, "security"),
    (0x20, "link chain")]

/-- A file. -/
def file (style : Style) (file : CatalogFile) : String :=
  style.fields [
    ("kind", "file"),
    ("CNID", toString file.fileId),
    ("record flags", flags file.flags.toUInt32 fileFlags),
    ("created", date file.createDate),
    ("content modified", date file.contentModDate),
    ("accessed", date file.accessDate)] ++
  permissions style file.permissions ++
  style.fields [
    ("type/creator",
      fourCharacters file.userInfo.fileType ++ "/" ++ fourCharacters file.userInfo.fileCreator),
    ("finder flags", Text.hexPadded 6 file.userInfo.finderFlags.toNat),
    ("text encoding", toString file.textEncoding)] ++
  forkData style "data fork" file.dataFork ++
  forkData style "resource fork" file.resourceFork

/-- A folder, file or thread, with the path it was reached by, if there is one. -/
def entry (style : Style) (entry : CatalogEntry) (path : Option String) : String :=
  let record :=
    match entry.record with
    | .folder stored => folder style stored
    | .file stored => file style stored
    | .folderThread thread | .fileThread thread =>
      style.fields [("kind", "thread"),
        ("target", s!"{thread.name.text} in {thread.parentId}")]
  style.heading entry.key.name.text ++ ((path.map (style.field "path")).getD "") ++
    style.field "parent" (toString entry.key.parentId) ++ record

/-- One line for a folder or file: mode, number, size or number of contents, and
name. Threads have none. -/
def listed (style : Style) (entry : CatalogEntry) : String :=
  let line (mode : UInt16) (cnid count name : String) : String :=
    modeText mode ++ " " ++ Text.padLeft 10 cnid ++ " " ++ Text.padLeft 12 count ++ " " ++
      name ++ "\n"
  match entry.record with
  | .folder stored =>
    line (stored.permissions.fileMode ||| 0x4000) (toString stored.folderId)
      (toString stored.valence) (style.paint .heading entry.key.name.toPosix ++ "/")
  | .file stored =>
    line stored.permissions.fileMode (toString stored.fileId)
      (toString stored.dataFork.logicalSize) entry.key.name.toPosix
  | .folderThread _ | .fileThread _ => ""

/-- The contents of a folder. -/
def listing (style : Style) (entries : List CatalogEntry) : String :=
  String.join (entries.map (listed style))

/-- How many bytes of an attribute are shown. -/
def shownBytes : Nat := 32

/-- One line for a record of the attributes tree. -/
def attributeLine (style : Style) (key : AttributeKey) (value : AttributeValue) : String :=
  let text :=
    match value with
    | .inline data =>
      let shown := " ".intercalate ((data.take shownBytes).map fun byte => Bytes.hex [byte])
      let more := if shownBytes < data.length then " ..." else ""
      s!"inline {data.length} bytes: {shown}{more}"
    | .fork data => s!"fork {Text.size data.logicalSize.toNat} in {data.totalBlocks} blocks"
    | .extents record =>
      let runs := (record.toList.filter fun extent => extent.blockCount != 0).length
      s!"{runs} more extents from block {key.startBlock}"
  style.paint .label key.name.text ++ ": " ++ text ++ "\n"

/-- The attributes of a file. -/
def attributes (style : Style) (found : List (AttributeKey × AttributeValue)) : String :=
  if found.isEmpty then "no extended attributes\n"
  else String.join (found.map fun (key, value) => attributeLine style key value)

end HfsPlus.Report
