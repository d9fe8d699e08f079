import HfsPlus.Name.Order
import HfsPlus.Record.Field
import HfsPlus.Structure.Catalog
import HfsPlus.Tree.Basic

/-!
# The catalog: folders, files and threads

The catalog keeps every folder and file under its parent's number and its own
name. For the way back it keeps, under the number of each folder and file and the
empty name, a thread record with the parent and the name. The empty name comes
first among the names of a parent, so a folder's thread stands right before the
folder's contents.

Names are compared with their letter case folded, except on a volume of the
case-sensitive variant whose catalog asks for the binary order.
-/

namespace HfsPlus

/-- The folder above the root folder, which does not exist. -/
def rootParentId : UInt32 := 1

/-- The root folder. -/
def rootFolderId : UInt32 := 2

/-- A parent and a name under it. -/
structure CatalogKey where
  parentId : UInt32
  name : Name
  deriving DecidableEq, Repr

namespace CatalogKey

/-- The key of the thread record of a folder or file. -/
def thread (cnid : UInt32) : CatalogKey := ⟨cnid, .empty⟩

/-- The stored form, without the length before it. -/
def encode (key : CatalogKey) : Bytes := Word.bytes key.parentId ++ key.name.encode

/-- Read a key; what follows the name is not looked at. -/
def decode (bytes : Bytes) : Except Error CatalogKey := do
  if bytes.length < 6 then throw (.invalid (.catalogKeyCut bytes.length))
  let parentId ← Word.field "catalog key" bytes 0
  let (name, _) ← Name.decode (bytes.drop 4)
  return ⟨parentId, name⟩

/-- A key with its structure. -/
def inspected (key : CatalogKey) : String :=
  Text.structured "CatalogKey"
    [("parent_id", toString key.parentId), ("name", key.name.inspected)]

end CatalogKey

/-- The way back from a folder or file: its parent and its name. -/
structure CatalogThread where
  parentId : UInt32
  name : Name
  deriving DecidableEq, Repr

namespace CatalogThread

/-- Read a thread from the whole of its record. -/
def decode (bytes : Bytes) : Except Error CatalogThread := do
  let parentId ← Word.field "catalog thread" bytes 4
  let (name, _) ← Name.decode (bytes.drop 8)
  return ⟨parentId, name⟩

/-- The stored form as a record of a type. -/
def encode (thread : CatalogThread) (type : CatalogRecordType) : Bytes :=
  Word.bytes (Int16.ofInt (Coded.code type)) ++ Word.bytes (0 : UInt16) ++
    Word.bytes thread.parentId ++ thread.name.encode

/-- A thread with its structure. -/
def inspected (thread : CatalogThread) : String :=
  Text.structured "CatalogThread"
    [("parent_id", toString thread.parentId), ("name", thread.name.inspected)]

end CatalogThread

/-- A leaf record of the catalog. -/
inductive CatalogRecord where
  | folder (folder : CatalogFolder)
  | file (file : CatalogFile)
  | folderThread (thread : CatalogThread)
  | fileThread (thread : CatalogThread)
  deriving DecidableEq, Repr

namespace CatalogRecord

/-- Read a record as the type at its start says. -/
def decode (bytes : Bytes) : Except Error CatalogRecord := do
  let number : Int16 ← Word.field "catalog record" bytes 0
  let type : CatalogRecordType ← (Coded.ofCode number.toInt).mapError UnknownCode.toError
  match type with
  | .folder => folder <$> Stored.read bytes
  | .file => file <$> Stored.read bytes
  | .folderThread => folderThread <$> CatalogThread.decode bytes
  | .fileThread => fileThread <$> CatalogThread.decode bytes

/-- The type of a record. -/
def type : CatalogRecord → CatalogRecordType
  | folder _ => .folder
  | file _ => .file
  | folderThread _ => .folderThread
  | fileThread _ => .fileThread

/-- The number of a folder or file; a thread has none of its own. -/
def cnid? : CatalogRecord → Option UInt32
  | .folder stored => some stored.folderId
  | .file stored => some stored.fileId
  | _ => none

/-- The thread, if the record is one. -/
def thread? : CatalogRecord → Option CatalogThread
  | folderThread thread | fileThread thread => some thread
  | _ => none

/-- Whether the record is a thread. -/
def isThread (record : CatalogRecord) : Bool := record.thread?.isSome

/-- A record with its structure. -/
def inspected : CatalogRecord → String
  | .folder stored => Text.tagged "Folder" [Stored.text stored]
  | .file stored => Text.tagged "File" [Stored.text stored]
  | folderThread thread => Text.tagged "FolderThread" [thread.inspected]
  | fileThread thread => Text.tagged "FileThread" [thread.inspected]

end CatalogRecord

/-- A folder, file or thread with the key it is kept under. -/
structure CatalogEntry where
  key : CatalogKey
  record : CatalogRecord
  deriving DecidableEq, Repr

/-- Whether the entry is a folder. -/
def CatalogEntry.isFolder (entry : CatalogEntry) : Bool :=
  match entry.record with
  | .folder _ => true
  | _ => false

namespace Catalog

/-- The name of the tree. -/
def treeName : String := "catalog"

/-- The order of names. -/
def compareNames (caseSensitive : Bool) (left right : Name) : Ordering :=
  if caseSensitive then left.compareBinary right else left.compareFolding right

/-- Keys are ordered by parent, then by name. -/
def compareKeys (caseSensitive : Bool) (left right : CatalogKey) : Ordering :=
  (compare left.parentId right.parentId).then (compareNames caseSensitive left.name right.name)

/-- The records of the catalog. -/
def schema (caseSensitive : Bool) : Schema CatalogKey CatalogRecord where
  name := treeName
  compare := compareKeys caseSensitive
  decodeKey := CatalogKey.decode
  decodeValue _ := CatalogRecord.decode

/-- Whether names are compared as they are: only where the volume is of the
case-sensitive variant and the tree asks for it. -/
def isCaseSensitive (hfsx : Bool) (header : TreeHeader) : Bool :=
  hfsx && header.keyComparison.toOption == some .binary

/-- The records of a catalog with a given description. A comparison that is not
known is noted and folds letter case. -/
def configure {m : Type → Type} [Monad m] [Logging m] (hfsx : Bool) (header : TreeHeader) :
    m (Schema CatalogKey CatalogRecord) := do
  if header.keyComparison.toOption.isNone then
    log (.unknownKeyComparison header.keyCompareType)
  return schema (isCaseSensitive hfsx header)

end Catalog

end HfsPlus
