import HfsPlus.Record.Field
import HfsPlus.Structure.HotFiles
import HfsPlus.Tree.Basic

/-!
# The hot files tree

Files that are used often are kept under their temperature. For the way back the
tree keeps, under the greatest temperature there is, a thread record for each file
with the temperature it is kept under; threads therefore follow all other records.
-/

namespace HfsPlus

/-- A temperature and a fork of a file. -/
structure HotFileKey where
  kind : ForkKind
  temperature : UInt32
  fileId : UInt32
  deriving DecidableEq, Repr

/-- The temperature of thread records. -/
def threadTemperature : UInt32 := 0xFFFFFFFF

namespace HotFileKey

/-- The length of a stored key. -/
def length : Nat := 10

/-- The key of the thread record of a fork. -/
def thread (fileId : UInt32) (kind : ForkKind) : HotFileKey := ⟨kind, threadTemperature, fileId⟩

/-- Whether the key is that of a thread record. -/
def isThread (key : HotFileKey) : Bool := key.temperature == threadTemperature

/-- The stored form, without the length before it. -/
def encode (key : HotFileKey) : Bytes :=
  [key.kind.byte, 0] ++ Word.bytes key.temperature ++ Word.bytes key.fileId

/-- Read a key; the second byte is padding. -/
def decode (bytes : Bytes) : Except Error HotFileKey := do
  if bytes.length < length then throw (.invalid (.hotFileKeyCut bytes.length))
  let kind ← ForkKind.ofByte (← Word.field "hot files key" bytes 0)
  let temperature ← Word.field "hot files key" bytes 2
  let fileId ← Word.field "hot files key" bytes 6
  return ⟨kind, temperature, fileId⟩

/-- Keys are ordered by temperature, then by file, then by fork. -/
def compare (left right : HotFileKey) : Ordering :=
  (Ord.compare left.temperature right.temperature).then
    ((Ord.compare left.fileId right.fileId).then (ForkKind.compare left.kind right.kind))

/-- A key with its structure. -/
def inspected (key : HotFileKey) : String :=
  Text.structured "HotFileKey" [("fork_type", Coded.title key.kind),
    ("temperature", toString key.temperature), ("file_id", toString key.fileId)]

end HotFileKey

/-- A record of the hot files tree. -/
inductive HotFileRecord where
  /-- What a thread says: the temperature that its file is kept under. -/
  | temperature (value : UInt32)
  /-- What stands under a temperature. -/
  | tag (value : UInt32)
  deriving DecidableEq, Repr

/-- Read a record; its key says which kind it is. -/
def HotFileRecord.decode (key : HotFileKey) (bytes : Bytes) : Except Error HotFileRecord := do
  let value ← Word.field "hot files record" bytes 0
  return if key.isThread then temperature value else tag value

/-- A record with its structure. -/
def HotFileRecord.inspected : HotFileRecord → String
  | temperature value => Text.tagged "Temperature" [toString value]
  | tag value => Text.tagged "Tag" [toString value]

/-- The records of the hot files tree. -/
def hotFileSchema : Schema HotFileKey HotFileRecord where
  name := "hotfiles"
  compare := HotFileKey.compare
  decodeKey := HotFileKey.decode
  decodeValue := HotFileRecord.decode

end HfsPlus
