import HfsPlus.Record.Field
import HfsPlus.Structure.Fork
import HfsPlus.Tree.Search

/-!
# The extents overflow tree

Runs of a fork that do not fit in its own data are kept in records of eight,
under the file, the fork and the first logical block that the record maps. The
tree is thus a source of overflow records.
-/

namespace HfsPlus

/-- A fork and a logical block of it. -/
structure ExtentKey where
  kind : ForkKind
  fileId : UInt32
  startBlock : UInt32
  deriving DecidableEq, Repr

namespace ExtentKey

/-- The length of a stored key. -/
def length : Nat := 10

/-- The stored form, without the length before it. -/
def encode (key : ExtentKey) : Bytes :=
  [key.kind.byte, 0] ++ Word.bytes key.fileId ++ Word.bytes key.startBlock

/-- Read a key; the second byte is padding. -/
def decode (bytes : Bytes) : Except Error ExtentKey := do
  if bytes.length < length then throw (.invalid (.extentKeyCut bytes.length))
  let kind ← ForkKind.ofByte (← Word.field "extents key" bytes 0)
  let fileId ← Word.field "extents key" bytes 2
  let startBlock ← Word.field "extents key" bytes 6
  return ⟨kind, fileId, startBlock⟩

/-- Keys are ordered by file, then by fork, then by block. -/
def compare (left right : ExtentKey) : Ordering :=
  (Ord.compare left.fileId right.fileId).then
    ((ForkKind.compare left.kind right.kind).then (Ord.compare left.startBlock right.startBlock))

/-- A key with its structure. -/
def inspected (key : ExtentKey) : String :=
  Text.structured "ExtentKey" [("fork_type", Coded.title key.kind),
    ("file_id", toString key.fileId), ("start_block", toString key.startBlock)]

end ExtentKey

/-- The records of the overflow tree. -/
def overflowSchema : Schema ExtentKey ExtentRecord where
  name := "extents"
  compare := ExtentKey.compare
  decodeKey := ExtentKey.decode
  decodeValue _ := Stored.read

/-- The tree as a source of overflow records. -/
def Access.overflowSource {m : Type → Type} [Monad m] (access : Access m ExtentKey ExtentRecord) :
    OverflowSource m :=
  fun fileId kind startBlock => do
    let found ← access.find ⟨kind, fileId, startBlock⟩
    return found.map (·.2)

end HfsPlus
