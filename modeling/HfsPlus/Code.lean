import HfsPlus.Text.Number

/-!
# Alternatives stored as numbers

A closed set of alternatives is stored on disk as a number: the signature of a
volume, the kind of a node, the type of a record. `Coded` lists the alternatives
of such a set with their numbers, and `Coded.ofCode` accepts exactly the listed
numbers and reports any other one with the field it stood in.
-/

namespace HfsPlus

/-- A number that stands for no alternative of its field. -/
structure UnknownCode where
  /-- What the number should have named. -/
  field : String
  code : Int
  deriving DecidableEq, Repr

/-- The report names the field and shows the number in hexadecimal. -/
def UnknownCode.message (unknown : UnknownCode) : String :=
  "unknown " ++ unknown.field ++ " " ++ Text.hexSigned unknown.code

/-- A closed set of alternatives with their numbers. -/
class Coded (α : Type) where
  /-- What the number names. -/
  field : String
  /-- Every alternative. -/
  all : List α
  /-- The number of an alternative. -/
  code : α → Int
  /-- The name of an alternative. -/
  title : α → String

namespace Coded

variable {α : Type} [Coded α]

/-- The alternative that a number stands for. -/
def ofCode (number : Int) : Except UnknownCode α :=
  match all.find? (fun alternative => code alternative == number) with
  | some alternative => .ok alternative
  | none => .error ⟨field α, number⟩

end Coded

/-- What kind of filing system a volume says it holds. -/
inductive VolumeSignature where
  /-- The older system, which may wrap an HFS+ volume. -/
  | hfs
  | hfsPlus
  /-- The variant whose names may be case sensitive. -/
  | hfsX
  deriving DecidableEq, Repr

instance : Coded VolumeSignature where
  field := "volume signature"
  all := [.hfs, .hfsPlus, .hfsX]
  code
    | .hfs => 0x4244
    | .hfsPlus => 0x482B
    | .hfsX => 0x4858
  title
    | .hfs => "Hfs"
    | .hfsPlus => "HfsPlus"
    | .hfsX => "HfsX"

/-- What a node of a tree holds. -/
inductive NodeKind where
  /-- Keys with their values. -/
  | leaf
  /-- Keys with the nodes below them. -/
  | index
  /-- The description of the tree, always node 0. -/
  | header
  /-- More of the allocation bitmap of the tree's nodes. -/
  | map
  deriving DecidableEq, Repr

instance : Coded NodeKind where
  field := "node kind"
  all := [.leaf, .index, .header, .map]
  code
    | .leaf => -1
    | .index => 0
    | .header => 1
    | .map => 2
  title
    | .leaf => "Leaf"
    | .index => "Index"
    | .header => "Header"
    | .map => "Map"

/-- The kind of a node inside a sentence. -/
def NodeKind.label : NodeKind → String
  | .leaf => "leaf"
  | .index => "index"
  | .header => "header"
  | .map => "map"

/-- How a catalog orders names that share a parent. -/
inductive KeyComparison where
  /-- Nothing stored: letter case is folded. -/
  | unspecified
  | caseFolding
  | binary
  deriving DecidableEq, Repr

instance : Coded KeyComparison where
  field := "key compare type"
  all := [.unspecified, .caseFolding, .binary]
  code
    | .unspecified => 0x00
    | .caseFolding => 0xCF
    | .binary => 0xBC
  title
    | .unspecified => "Unspecified"
    | .caseFolding => "CaseFolding"
    | .binary => "BinaryCompare"

/-- What a catalog leaf record describes. -/
inductive CatalogRecordType where
  | folder
  | file
  | folderThread
  | fileThread
  deriving DecidableEq, Repr

instance : Coded CatalogRecordType where
  field := "catalog record type"
  all := [.folder, .file, .folderThread, .fileThread]
  code
    | .folder => 1
    | .file => 2
    | .folderThread => 3
    | .fileThread => 4
  title
    | .folder => "Folder"
    | .file => "File"
    | .folderThread => "FolderThread"
    | .fileThread => "FileThread"

/-- One of the two byte streams of a file. -/
inductive ForkKind where
  | data
  | resource
  deriving DecidableEq, Repr

instance : Coded ForkKind where
  field := "fork type"
  all := [.data, .resource]
  code
    | .data => 0x00
    | .resource => 0xFF
  title
    | .data => "Data"
    | .resource => "Resource"

/-- The kind of a fork inside a sentence. -/
def ForkKind.label : ForkKind → String
  | .data => "data"
  | .resource => "resource"

/-- The byte that stands for a fork in a key. -/
def ForkKind.byte : ForkKind → UInt8
  | .data => 0x00
  | .resource => 0xFF

/-- The data fork comes first. -/
def ForkKind.compare (left right : ForkKind) : Ordering :=
  Ord.compare left.byte right.byte

/-- How an attribute is stored. -/
inductive AttributeRecordType where
  | inlineData
  | forkData
  | extents
  deriving DecidableEq, Repr

instance : Coded AttributeRecordType where
  field := "attribute record type"
  all := [.inlineData, .forkData, .extents]
  code
    | .inlineData => 0x10
    | .forkData => 0x20
    | .extents => 0x30
  title
    | .inlineData => "InlineData"
    | .forkData => "ForkData"
    | .extents => "Extents"

end HfsPlus
