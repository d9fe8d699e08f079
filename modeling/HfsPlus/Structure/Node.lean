import HfsPlus.Code
import HfsPlus.Layout

/-!
# The fixed parts of a tree node

Every node of a tree starts with a descriptor. The first record of node 0
describes the whole tree: its depth and root, how many nodes and leaf records it
has, and how its keys are written.
-/

namespace HfsPlus

/-- The start of every node: its neighbours, its kind and how many records it holds. -/
structure NodeDescriptor where
  forwardLink : UInt32
  backwardLink : UInt32
  kind : Int8
  height : UInt8
  numRecords : UInt16
  reserved : UInt16
  deriving DecidableEq, Repr

/-- The fields of `NodeDescriptor` in the order in which they are stored. -/
def NodeDescriptor.layout : Layout NodeDescriptor :=
  .record "NodeDescriptor"
    (.field "forward_link" .word <| .field "backward_link" .word <| .field "kind" .word <|
      .field "height" .word <| .field "num_records" .word <| .field "reserved" .word <| .done)
    (fun (forwardLink, backwardLink, kind, height, numRecords, reserved, ()) => ⟨forwardLink,
      backwardLink, kind, height, numRecords, reserved⟩)
    (fun ⟨forwardLink, backwardLink, kind, height, numRecords, reserved⟩ => (forwardLink,
      backwardLink, kind, height, numRecords, reserved, ()))
    (fun _ => rfl) (fun _ => rfl)

instance : Stored NodeDescriptor := ⟨NodeDescriptor.layout⟩

/-- How many bytes the descriptor takes. -/
def nodeDescriptorSize : Nat := 14

/-- The description of a tree, the first record of its first node. -/
structure TreeHeader where
  treeDepth : UInt16
  rootNode : UInt32
  leafRecords : UInt32
  firstLeafNode : UInt32
  lastLeafNode : UInt32
  nodeSize : UInt16
  maxKeyLength : UInt16
  totalNodes : UInt32
  freeNodes : UInt32
  reserved1 : UInt16
  clumpSize : UInt32
  btreeType : UInt8
  keyCompareType : UInt8
  attributes : UInt32
  reserved3 : Vector UInt32 16
  deriving DecidableEq, Repr

/-- The fields of `TreeHeader` in the order in which they are stored. -/
def TreeHeader.layout : Layout TreeHeader :=
  .record "BTreeHeaderRecord"
    (.field "tree_depth" .word <| .field "root_node" .word <| .field "leaf_records" .word <|
      .field "first_leaf_node" .word <| .field "last_leaf_node" .word <|
      .field "node_size" .word <| .field "max_key_length" .word <| .field "total_nodes" .word <|
      .field "free_nodes" .word <| .field "reserved_1" .word <| .field "clump_size" .word <|
      .field "btree_type" .word <| .field "key_compare_type" .word <|
      .field "attributes" .word <| .field "reserved_3" (.array 16 .word) <| .done)
    (fun (treeDepth, rootNode, leafRecords, firstLeafNode, lastLeafNode, nodeSize, maxKeyLength,
      totalNodes, freeNodes, reserved1, clumpSize, btreeType, keyCompareType, attributes,
      reserved3, ()) => ⟨treeDepth, rootNode, leafRecords, firstLeafNode, lastLeafNode, nodeSize,
      maxKeyLength, totalNodes, freeNodes, reserved1, clumpSize, btreeType, keyCompareType,
      attributes, reserved3⟩)
    (fun ⟨treeDepth, rootNode, leafRecords, firstLeafNode, lastLeafNode, nodeSize, maxKeyLength,
      totalNodes, freeNodes, reserved1, clumpSize, btreeType, keyCompareType, attributes,
      reserved3⟩ => (treeDepth, rootNode, leafRecords, firstLeafNode, lastLeafNode, nodeSize,
      maxKeyLength, totalNodes, freeNodes, reserved1, clumpSize, btreeType, keyCompareType,
      attributes, reserved3, ()))
    (fun _ => rfl) (fun _ => rfl)

instance : Stored TreeHeader := ⟨TreeHeader.layout⟩

namespace TreeHeader

/-- How the tree orders names, if the stored number says. -/
def keyComparison (header : TreeHeader) : Except UnknownCode KeyComparison :=
  Coded.ofCode header.keyCompareType.toNat

/-- Whether key lengths are two bytes rather than one. -/
def bigKeys (header : TreeHeader) : Bool := header.attributes &&& 2 != 0

/-- Whether a key in an index node takes its own length rather than the greatest. -/
def variableIndexKeys (header : TreeHeader) : Bool := header.attributes &&& 4 != 0

end TreeHeader

/-- The size of the user data record, the second record of the first node. -/
def userDataSize : Nat := 128

end HfsPlus
