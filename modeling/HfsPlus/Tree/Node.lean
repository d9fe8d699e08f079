import HfsPlus.Error
import HfsPlus.Structure.Node

/-!
# Nodes of a tree

A node is a block of fixed size: a descriptor, then records one after the other,
then free space, and at the very end a table of 16-bit offsets that is read
backwards. The table has one offset for the start of each record and one more
for the start of the free space.

A node is accepted when its kind is known, the table fits, the first record
starts behind the descriptor, the offsets never decrease, and the free space does
not start inside the table. Its records then follow each other without gap or
overlap, and any of them can be taken without further checks.

A record of a leaf or an index node is a key behind its length, and a value that
starts at an even place. `RecordForm` says how the lengths of keys are written
and how much room a key takes.
-/

namespace HfsPlus

/-- A node with its records cut out. -/
structure Node where
  /-- The tree that the node belongs to, for error texts. -/
  tree : String
  number : UInt32
  descriptor : NodeDescriptor
  kind : NodeKind
  /-- Where the records start, front to back, and at last where the free space does. -/
  offsets : List Nat
  records : Array Bytes
  /-- How many bytes lie between the last record and the table of offsets. -/
  freeSpace : Nat
  deriving DecidableEq

/-- How keys are written in a tree's records. -/
structure RecordForm where
  /-- Key lengths are two bytes rather than one. -/
  bigKeys : Bool
  /-- Keys of index nodes take their own length rather than the greatest. -/
  variableIndexKeys : Bool
  maxKeyLength : Nat
  deriving DecidableEq, Repr

/-- The form that the description of a tree asks for. -/
def TreeHeader.recordForm (header : TreeHeader) : RecordForm where
  bigKeys := header.bigKeys
  variableIndexKeys := header.variableIndexKeys
  maxKeyLength := header.maxKeyLength.toNat

/-- A record in two: the bytes of its key, and those of its value. -/
structure SplitRecord where
  key : Bytes
  value : Bytes
  deriving DecidableEq, Repr

namespace Node

/-- The words in some bytes, in their order; an odd byte at the end is left out. -/
def wordsOf : Bytes → List Nat
  | high :: low :: rest => Bytes.value [high, low] :: wordsOf rest
  | _ => []

/-- How many bytes the table of offsets takes in a node with some records. -/
def tableSize (records : Nat) : Nat := 2 * (records + 1)

/-- The first place where an offset is smaller than the one before it. -/
def firstDecrease : (record : Nat) → List Nat → Option (Nat × Nat × Nat)
  | record, first :: second :: rest =>
    if second < first then some (record, first, second)
    else firstDecrease (record + 1) (second :: rest)
  | _, _ => none

/-- Cut bytes that start at the first offset at each of the further ones. -/
def cutAt : (offsets : List Nat) → Bytes → List Bytes
  | first :: second :: rest, bytes =>
    bytes.take (second - first) :: cutAt (second :: rest) (bytes.drop (second - first))
  | _, _ => []

/-- Read a node from its bytes. -/
def parse (tree : String) (number : UInt32) (bytes : Bytes) : Except Error Node := do
  let corrupt (fault : NodeFault) : Error := .corruptNode tree number fault
  let descriptor : NodeDescriptor ← Stored.read bytes
  let kind : NodeKind ← (Coded.ofCode descriptor.kind.toInt).mapError fun code =>
    corrupt (.unknownKind code)
  let size := bytes.length
  let count := descriptor.numRecords.toNat
  if size < nodeDescriptorSize + tableSize count then throw (corrupt (.offsetTableCut count size))
  let tableStart := size - tableSize count
  let offsets := (wordsOf (bytes.drop tableStart)).reverse
  let first := offsets.headD 0
  let free := offsets.getLastD 0
  if first < nodeDescriptorSize then throw (corrupt (.firstOffsetLow first))
  if let some (record, first, second) := firstDecrease 0 offsets then
    throw (corrupt (.offsetsDecrease record first second))
  if tableStart < free then throw (corrupt (.offsetTableHit free tableStart))
  return { tree := tree
           number := number
           descriptor := descriptor
           kind := kind
           offsets := offsets
           records := (cutAt offsets (bytes.drop first)).toArray
           freeSpace := tableStart - free }

/-- How many records the node holds. -/
def count (node : Node) : Nat := node.records.size

/-- The next node of the same level, zero behind the last. -/
def forwardLink (node : Node) : UInt32 := node.descriptor.forwardLink

/-- The bytes of a record. -/
def record (node : Node) (index : Nat) : Except Error Bytes :=
  match node.records[index]? with
  | some bytes => .ok bytes
  | none => .error (.recordOutOfRange index node.count)

/-- The length of a record's key and the bytes behind it. -/
def keyLength? (form : RecordForm) (record : Bytes) : Option (Nat × Bytes) :=
  match form.bigKeys, record with
  | true, high :: low :: rest => some (Bytes.value [high, low], rest)
  | false, length :: rest => some (length.toNat, rest)
  | _, _ => none

/-- Split a record of a leaf or an index node. The key takes the room that the
form gives it, and the value starts at the next even place of the record. -/
def split (node : Node) (form : RecordForm) (index : Nat) : Except Error SplitRecord := do
  let corrupt (fault : NodeFault) : Error := .corruptNode node.tree node.number fault
  let record ← node.record index
  let some (length, rest) := keyLength? form record | throw (corrupt (.keyLengthMissing index))
  let room := if node.kind = .index ∧ !form.variableIndexKeys then form.maxKeyLength else length
  if room < length then throw (corrupt (.keyTooLong index length room))
  let keyEnd := record.length - rest.length + room
  let valueStart := keyEnd + keyEnd % 2
  if record.length < valueStart then throw (corrupt (.keyCut index room record.length))
  return ⟨rest.take length, record.drop valueStart⟩

end Node

end HfsPlus
