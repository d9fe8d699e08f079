import HfsPlus.Name.Order
import HfsPlus.Record.Field
import HfsPlus.Structure.Attribute
import HfsPlus.Tree.Basic

/-!
# The attributes tree

Folders and files carry named attributes. A short attribute lies in its record; a
longer one has a fork of its own, whose data is in the first record and whose
further runs are in more records under the same name, each with the first block
that it maps.
-/

namespace HfsPlus

/-- A file, an attribute of it, and the first block of a piece of that attribute. -/
structure AttributeKey where
  fileId : UInt32
  startBlock : UInt32
  name : Name
  deriving DecidableEq, Repr

namespace AttributeKey

/-- The first key that an attribute of a file may have. -/
def firstOf (fileId : UInt32) : AttributeKey := ⟨fileId, 0, .empty⟩

/-- The stored form, without the length before it. -/
def encode (key : AttributeKey) : Bytes :=
  [0, 0] ++ Word.bytes key.fileId ++ Word.bytes key.startBlock ++ key.name.encode

/-- Read a key; the first two bytes are padding. -/
def decode (bytes : Bytes) : Except Error AttributeKey := do
  let _padding : UInt16 ← Word.field "attributes key" bytes 0
  let fileId ← Word.field "attributes key" bytes 2
  let startBlock ← Word.field "attributes key" bytes 6
  let (name, _) ← Name.decode (bytes.drop 10)
  return ⟨fileId, startBlock, name⟩

/-- Keys are ordered by file, then by name unit by unit, then by block. -/
def compare (left right : AttributeKey) : Ordering :=
  (Ord.compare left.fileId right.fileId).then
    ((left.name.compareBinary right.name).then (Ord.compare left.startBlock right.startBlock))

/-- A key with its structure. -/
def inspected (key : AttributeKey) : String :=
  Text.structured "AttributeKey" [("file_id", toString key.fileId),
    ("start_block", toString key.startBlock), ("name", key.name.inspected)]

end AttributeKey

/-- A record of the attributes tree. -/
inductive AttributeValue where
  /-- The attribute itself. -/
  | inline (data : Bytes)
  /-- Where the attribute lies. -/
  | fork (data : ForkData)
  /-- Further runs of an attribute. -/
  | extents (record : ExtentRecord)
  deriving DecidableEq, Repr

namespace AttributeValue

/-- Where the bytes of an attribute start in its record. -/
def inlineStart : Nat := 16

/-- Read a record as the type at its start says. -/
def decode (bytes : Bytes) : Except Error AttributeValue := do
  let number : UInt32 ← Word.field "attribute record" bytes 0
  let type : AttributeRecordType ←
    (Coded.ofCode number.toNat).mapError UnknownCode.toError
  match type with
  | .inlineData =>
    let size : UInt32 ← Word.field "inline attribute" bytes 12
    match bytes.slice? inlineStart size.toNat with
    | some data => return inline data
    | none => throw (.invalid (.inlineCut size.toNat bytes.length))
  | .forkData =>
    let stored : AttributeForkData ← Stored.read bytes
    return fork stored.fork
  | .extents =>
    let stored : AttributeExtents ← Stored.read bytes
    return extents stored.extents

/-- The record of an attribute that lies in it. -/
def encodeInline (data : Bytes) : Bytes :=
  Word.bytes (0x10 : UInt32) ++ List.replicate 8 0 ++
    Word.bytes (UInt32.ofNat data.length) ++ data

/-- The size of the attribute, if this record alone tells it. -/
def size? : AttributeValue → Option Nat
  | inline data => some data.length
  | fork data => some data.logicalSize.toNat
  | extents _ => none

/-- A record with its structure. -/
def inspected : AttributeValue → String
  | inline data => Text.tagged "Inline" [Text.listed (data.map fun byte => toString byte.toNat)]
  | fork data => Text.tagged "Fork" [Stored.text data]
  | extents record => Text.tagged "Extents" [Stored.text record]

end AttributeValue

/-- The records of the attributes tree. -/
def attributeSchema : Schema AttributeKey AttributeValue where
  name := "attributes"
  compare := AttributeKey.compare
  decodeKey := AttributeKey.decode
  decodeValue _ := AttributeValue.decode

end HfsPlus
