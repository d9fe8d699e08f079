import HfsPlus.Fork
import HfsPlus.RecencyCache
import HfsPlus.Tree.Node

/-!
# Trees of records

A tree keeps records sorted by key in nodes of one size, stored one after the
other in a fork. Index nodes lead from a root to the leaves, which hold the values
and are chained from left to right. What keys and values are differs from tree to
tree, and a `Schema` says it: how both are read, and how keys are ordered.

Nodes are got in one of two ways. `Tree.direct` reads each one from the fork when
it is asked for. `Tree.cached` keeps recently used ones. Either hands out a node
only after every record in it has been read once, unless damaged nodes are asked
for; a damaged node is never kept. Everything else about trees is written against
`Access`, so that it works in the same way with either.
-/

namespace HfsPlus

/-- What the records of a tree are. -/
structure Schema (Key Value : Type) where
  /-- The name of the tree, for error texts. -/
  name : String
  /-- The order of keys. -/
  compare : Key → Key → Ordering
  /-- Read a key, without its length. -/
  decodeKey : Bytes → Except Error Key
  /-- Read the value of a leaf record. -/
  decodeValue : Key → Bytes → Except Error Value

/-- A tree that was opened. -/
structure Tree (Key Value : Type) where
  schema : Schema Key Value
  stream : ForkStream
  /-- The file that the tree is stored in; it tells apart cached nodes. -/
  id : UInt32
  header : TreeHeader
  /-- What the second record of the first node holds. -/
  userData : Bytes

/-- The least size of a node, and how much is read before the size is known. -/
def minNodeSize : Nat := 512

/-- The greatest size of a node. -/
def maxNodeSize : Nat := 32768

/-- The sizes that a node may have: the powers of two between the bounds. -/
def isNodeSize (size : Nat) : Bool :=
  minNodeSize ≤ size && size ≤ maxNodeSize && size == 1 <<< Nat.log2 size

/-- A tree and a way to get its nodes. `node true` hands out a node only if all its
records can be read; `node false` hands out damaged ones too. -/
structure Access (m : Type → Type) (Key Value : Type) where
  tree : Tree Key Value
  node : (verified : Bool) → UInt32 → ExceptT Error m Node

namespace Tree

variable {Key Value : Type}

/-- How the records of the tree are written. -/
def form (tree : Tree Key Value) : RecordForm := tree.header.recordForm

/-- The size of a node in bytes. -/
def nodeSize (tree : Tree Key Value) : Nat := tree.header.nodeSize.toNat

/-- Whether the tree has no records, by its own account. -/
def isEmpty (tree : Tree Key Value) : Bool :=
  tree.header.leafRecords == 0 || tree.header.rootNode == 0

/-- A fault in a node of this tree. -/
def corrupt (tree : Tree Key Value) (node : UInt32) (fault : NodeFault) : Error :=
  .corruptNode tree.schema.name node fault

/-- Something wrong inside a record of a node. -/
def inRecord {α : Type} (tree : Tree Key Value) (node : Node) (index : Nat)
    (outcome : Except Error α) : Except Error α :=
  outcome.mapError fun cause => .corruptRecord tree.schema.name node.number index cause

/-- The key of a record of a leaf or an index node. -/
def keyAt (tree : Tree Key Value) (node : Node) (index : Nat) : Except Error Key := do
  let record ← node.split tree.form index
  tree.inRecord node index (tree.schema.decodeKey record.key)

/-- Key and value of a leaf record. -/
def leafRecord (tree : Tree Key Value) (node : Node) (index : Nat) :
    Except Error (Key × Value) := do
  let record ← node.split tree.form index
  let key ← tree.inRecord node index (tree.schema.decodeKey record.key)
  let value ← tree.inRecord node index (tree.schema.decodeValue key record.value)
  return (key, value)

/-- Key and child of an index record. -/
def indexRecord (tree : Tree Key Value) (node : Node) (index : Nat) :
    Except Error (Key × UInt32) := do
  let record ← node.split tree.form index
  let key ← tree.inRecord node index (tree.schema.decodeKey record.key)
  match Word.at? record.value 0 with
  | some child => return (key, child)
  | none => throw (tree.corrupt node.number (.childMissing index))

/-- All records of a leaf, in order, or the first error. -/
def leafRecords (tree : Tree Key Value) (node : Node) : Except Error (List (Key × Value)) :=
  (List.range node.count).mapM (tree.leafRecord node)

/-- All records of an index node, in order, or the first error. -/
def indexRecords (tree : Tree Key Value) (node : Node) : Except Error (List (Key × UInt32)) :=
  (List.range node.count).mapM (tree.indexRecord node)

/-- Read every record of a node once, as its kind asks for. -/
def verify (tree : Tree Key Value) (node : Node) : Except Error Unit :=
  match node.kind with
  | .leaf => (fun _ => ()) <$> tree.leafRecords node
  | .index => (fun _ => ()) <$> tree.indexRecords node
  | .header | .map => return ()

section Opening

variable {m : Type → Type} [Monad m] [Logging m]

/-- Open the tree stored in a stream. Node 0 must be a header node with a possible
node size; `configure` then says what the records are. The user data is the second
record of that node, or lies in its usual place if there is no second record. -/
def ofStream (name : String) (configure : TreeHeader → m (Schema Key Value))
    (stream : ForkStream) (id : UInt32) : ExceptT Error m (Tree Key Value) := do
  let head ← stream.readExact 0 minNodeSize
  let descriptor : NodeDescriptor ← Stored.read head
  if (Coded.ofCode descriptor.kind.toInt : Except UnknownCode NodeKind).toOption ≠ some .header then
    throw (.invalid (.headerNodeKind name descriptor.kind.toInt))
  let header : TreeHeader ← Stored.read (head.drop nodeDescriptorSize)
  let size := header.nodeSize.toNat
  if !isNodeSize size then throw (.invalid (.nodeSize name size))
  if stream.length < header.totalNodes.toNat * size then
    log (.nodesBeyondFork name header.totalNodes stream.length)
  let bytes ← stream.readExact 0 size
  let node ← Node.parse name 0 bytes
  let userData :=
    match node.record 1 with
    | .ok record => record
    | .error _ => (bytes.drop (nodeDescriptorSize + Stored.size TreeHeader)).take userDataSize
  let schema ← configure header
  log (.treeOpened name header.nodeSize header.treeDepth header.rootNode header.leafRecords
    header.totalNodes)
  return ⟨schema, stream, id, header, userData⟩

end Opening

section Fetching

variable {m : Type → Type} [Monad m] [Logging m]

/-- Refuse a node number that the tree does not have. -/
def checkRange (tree : Tree Key Value) (number : UInt32) : Except Error Unit :=
  if tree.header.totalNodes ≤ number then
    .error (.nodeOutOfRange tree.schema.name number tree.header.totalNodes)
  else .ok ()

/-- Read a node from the stream. The flag says whether all its records can be read;
a node that fails this is an error if it has to be verified. -/
def fetch (tree : Tree Key Value) (verified : Bool) (number : UInt32) :
    ExceptT Error m (Node × Bool) := do
  let bytes ← tree.stream.readExact (number.toNat * tree.nodeSize) tree.nodeSize
  let node ← Node.parse tree.schema.name number bytes
  match tree.verify node with
  | .ok () =>
    log (.nodeRead tree.schema.name number node.kind)
    return (node, true)
  | .error cause =>
    if verified then throw cause
    log (.damagedNode tree.schema.name number cause)
    return (node, false)

/-- Get nodes by reading each one anew. -/
def direct (tree : Tree Key Value) : Access m Key Value where
  tree := tree
  node verified number := do
    tree.checkRange number
    let (node, _) ← tree.fetch verified number
    return node

/-- Get nodes through a cache of verified ones. -/
def cached (tree : Tree Key Value) : Access (StateT (RecencyCache Node) m) Key Value where
  tree := tree
  node verified number := do
    tree.checkRange number
    let key := cacheKey tree.id number
    let (hit, cache) := (← getThe (RecencyCache Node)).get key
    set cache
    log (.cacheLookup key hit.isSome)
    match hit with
    | some node => return node
    | none =>
      let (node, sound) ← tree.fetch verified number
      if sound then
        let (cache, evicted) := (← getThe (RecencyCache Node)).set key node
        set cache
        if let some evicted := evicted then log (.cacheEviction evicted)
      return node

end Fetching

end Tree

end HfsPlus
