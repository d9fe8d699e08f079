import HfsPlus.Report.Style
import HfsPlus.Structure.HotFiles
import HfsPlus.Tree.Basic

/-!
# Reports on trees and their nodes
-/

namespace HfsPlus.Report

/-- The names of the attributes of a tree. -/
def treeAttributes : List (UInt32 × String) :=
  [(1, "bad close"), (2, "big keys"), (4, "variable index keys")]

/-- The description of a tree. -/
def treeHeader (style : Style) (name : String) (header : TreeHeader) : String :=
  let comparison :=
    match header.keyComparison with
    | .ok comparison => Coded.title comparison
    | .error unknown => unknown.message
  style.heading s!"{name} B-tree header" ++
    style.fields [
      ("depth", toString header.treeDepth),
      ("root node", toString header.rootNode),
      ("leaf records", toString header.leafRecords),
      ("first leaf", toString header.firstLeafNode),
      ("last leaf", toString header.lastLeafNode),
      ("node size", toString header.nodeSize),
      ("max key length", toString header.maxKeyLength),
      ("total nodes", toString header.totalNodes),
      ("free nodes", toString header.freeNodes),
      ("clump size", toString header.clumpSize),
      ("btree type", toString header.btreeType),
      ("key compare", comparison),
      ("attributes", flags header.attributes treeAttributes)]

/-- The description of the hot files. -/
def hotFilesInfo (style : Style) (info : HotFilesInfo) : String :=
  style.heading "Hot files" ++
    style.fields [
      ("magic", Text.hexPadded 10 info.magic.toNat),
      ("version", toString info.version),
      ("duration", toString info.duration),
      ("timebase", toString info.timebase),
      ("time left", toString info.timeleft),
      ("threshold", toString info.threshold),
      ("max file blocks", toString info.maxFileBlocks),
      ("max file count", toString info.maxFileCount),
      ("tag", info.tagText)]

/-- How keys and values of a tree are shown. -/
structure Inspected (Key Value : Type) where
  key : Key → String
  value : Value → String

/-- How many bits of some bytes are set. -/
def setBits (bytes : Bytes) : Nat :=
  bytes.foldl (fun set byte => set + ((List.range 8).filter byte.toNat.testBit).length) 0

/-- What a record of a node holds, as the kind of the node tells. A record that
cannot be read shows why. -/
def recordText {Key Value : Type} (inspected : Inspected Key Value) (tree : Tree Key Value)
    (node : Node) (index : Nat) : String :=
  match node.kind with
  | .header => s!"{(node.records.getD index []).length} bytes"
  | .map => s!"{setBits (node.records.getD index [])} nodes marked in use"
  | .index =>
    match tree.indexRecord node index with
    | .ok (key, child) => s!"{inspected.key key} -> node {child}"
    | .error cause => cause.message
  | .leaf =>
    match tree.leafRecord node index with
    | .ok (key, value) => s!"{inspected.key key}\n    {inspected.value value}"
    | .error cause => cause.message

/-- A node and its records; the first node is followed by the description of its
tree. -/
def node {Key Value : Type} (style : Style) (inspected : Inspected Key Value)
    (tree : Tree Key Value) (node : Node) : String :=
  let records := (List.range node.count).map fun index =>
    "  " ++ style.paint .record s!"record {index}" ++ ": " ++
      recordText inspected tree node index ++ "\n"
  style.heading s!"{tree.schema.name} node {node.number} ({node.kind.label})" ++
    style.fields [
      ("forward link", toString node.forwardLink),
      ("backward link", toString node.descriptor.backwardLink),
      ("height", toString node.descriptor.height),
      ("records", toString node.count),
      ("free space", toString node.freeSpace),
      ("offsets", Text.listed (node.offsets.map toString))] ++
    String.join records ++
    if node.kind = .header then treeHeader style tree.schema.name tree.header else ""

end HfsPlus.Report
