import HfsPlus.Proofs.FileSystem.Paths
import HfsPlus.Proofs.Record.Groups

/-!
# Listings are complete

What is in a folder, and which attributes a file has, is read off a tree record by record,
from the first key of a group on until the group ends. Where a tree is well-formed nothing is
missed and nothing is met twice: the listing is the whole group, in the order of the tree.
-/

namespace HfsPlus

open Std (TransCmp)

/-- The folders and files among catalog records that lie in a folder. -/
def Catalog.childrenIn (records : List (CatalogKey × CatalogRecord)) (folder : UInt32) :
    List CatalogEntry :=
  (records.filter fun record => record.1.parentId = folder ∧ ¬ record.2.isThread).map
    fun record => ⟨record.1, record.2⟩

/-- The attributes of a file among the records of an attributes tree. -/
def AttributeKey.belongingTo (records : List (AttributeKey × AttributeValue)) (file : UInt32) :
    List (AttributeKey × AttributeValue) :=
  records.filter fun record => record.1.fileId = file

namespace Access

/-- Listing the records of a folder collects what lies in it. -/
theorem visitAll_list (folder : UInt32) (records : List (CatalogKey × CatalogRecord))
    (found : List (Except Error CatalogEntry)) :
    visitAll (listVisit folder none) found
        ((records.filter fun record => record.1.parentId = folder).map .ok) =
      ((Catalog.childrenIn records folder).map .ok).reverse ++ found := by
  induction records generalizing found with
  | nil => rfl
  | cons record later inductionHypothesis =>
    obtain ⟨key, record⟩ := record
    unfold Catalog.childrenIn at inductionHypothesis ⊢
    by_cases here : key.parentId = folder
    · by_cases thread : record.isThread = true
      · simp [visitAll, listVisit, here, thread, inductionHypothesis]
      · simp [visitAll, listVisit, here, thread, inductionHypothesis]
    · simp [here, inductionHypothesis]

/-- Collecting the records of a file keeps them all. -/
theorem visitAll_attributes (file : UInt32) (records found : List (AttributeKey × AttributeValue)) :
    visitAll (attributeVisit file) (.ok found)
        ((AttributeKey.belongingTo records file).map .ok) =
      .ok ((AttributeKey.belongingTo records file).reverse ++ found) := by
  induction records generalizing found with
  | nil => rfl
  | cons record later inductionHypothesis =>
    obtain ⟨key, value⟩ := record
    unfold AttributeKey.belongingTo at inductionHypothesis ⊢
    by_cases here : key.fileId = file
    · simp [visitAll, attributeVisit, here, Except.map, inductionHypothesis]
    · simp [here, inductionHypothesis]

end Access

namespace Tree

/-- The contents of a folder in a well-formed catalog are listed completely. -/
theorem listFolder_direct {tree : Tree CatalogKey CatalogRecord}
    {records : List (CatalogKey × CatalogRecord)} {caseSensitive : Bool}
    (schema : tree.schema = Catalog.schema caseSensitive) (holds : tree.Holds records)
    (folder : UInt32) :
    ((tree.direct (m := Id)).listFolder folder none).run =
      .ok ((Catalog.childrenIn records folder).map .ok) := by
  have ordered : TransCmp tree.schema.compare := by
    rw [schema]
    exact inferInstanceAs (TransCmp (Catalog.compareKeys caseSensitive))
  have grouped : Grouped tree.schema.compare CatalogKey.parentId CatalogKey.thread := by
    rw [schema]
    exact Catalog.grouped caseSensitive
  obtain ⟨start, cursor, searched, placed, shown⟩ := holds.range_group grouped folder
  have collected := shown (Access.listVisit folder none) [] (fun found record other => by
    simp [Access.listVisit, other])
  rw [Access.visitAll_list, List.append_nil] at collected
  refine run_bind_eq_ok.mpr ⟨start, searched, run_bind_eq_ok.mpr ⟨cursor, placed, ?_⟩⟩
  refine run_bind_eq_ok.mpr ⟨_, congrArg Except.ok collected, ?_⟩
  exact congrArg Except.ok (List.reverse_reverse _)

/-- The attributes of a file in a well-formed tree are collected completely. -/
theorem attributesOf_direct {tree : Tree AttributeKey AttributeValue}
    {records : List (AttributeKey × AttributeValue)} (schema : tree.schema = attributeSchema)
    (holds : tree.Holds records) (file : UInt32) :
    ((tree.direct (m := Id)).attributesOf file).run =
      .ok (AttributeKey.belongingTo records file) := by
  have ordered : TransCmp tree.schema.compare := by
    rw [schema]
    exact inferInstanceAs (TransCmp AttributeKey.compare)
  have grouped : Grouped tree.schema.compare AttributeKey.fileId AttributeKey.firstOf := by
    rw [schema]
    exact AttributeKey.grouped
  obtain ⟨start, cursor, searched, placed, shown⟩ := holds.range_group grouped file
  have collected := shown (Access.attributeVisit file) (.ok []) (fun found record other => by
    simp [Access.attributeVisit, other])
  have belonging := Access.visitAll_attributes file records []
  rw [AttributeKey.belongingTo, List.append_nil] at belonging
  rw [belonging] at collected
  refine run_bind_eq_ok.mpr ⟨start, searched, run_bind_eq_ok.mpr ⟨cursor, placed, ?_⟩⟩
  refine run_bind_eq_ok.mpr ⟨_, collected, ?_⟩
  exact congrArg Except.ok (List.reverse_reverse _)

end Tree

namespace FileSystem

variable {system : FileSystem}

/-- The records of the attributes tree of a volume, which may also have none. -/
inductive HoldsAttributes (system : FileSystem) : List (AttributeKey × AttributeValue) → Prop
  | absent : system.attributesTree = .ok none → HoldsAttributes system []
  | kept {tree : Tree AttributeKey AttributeValue}
    {records : List (AttributeKey × AttributeValue)} :
    system.attributesTree = .ok (some tree) → tree.Holds records → HoldsAttributes system records

/-- The attributes of a volume are ordered by file, by name and by block. -/
theorem schema_of_attributesTree {tree : Tree AttributeKey AttributeValue}
    (opened : system.attributesTree = .ok (some tree)) : tree.schema = attributeSchema := by
  unfold attributesTree openAttributes at opened
  split at opened
  · cases opened
  · obtain ⟨stream, _, opened⟩ := run_bind_eq_ok.mp opened
    rw [map_eq_pure_bind] at opened
    obtain ⟨other, opened, same⟩ := run_bind_eq_ok.mp opened
    cases same
    exact Tree.schema_of_ofStream opened

/-- Without a shelf the attributes are come by as they were opened. -/
theorem direct_attributes {found : Option (Tree AttributeKey AttributeValue)}
    (opened : system.attributesTree = .ok found) :
    (system.direct (m := Id)).attributes.run = .ok (found.map Tree.direct) := by
  change (Option.map Tree.direct <$> system.openAttributes (system.direct (m := Id)).extents :
    ExceptT Error Id _).run = _
  rw [map_eq_pure_bind, run_bind_direct]
  change system.attributesTree.bind _ = _
  rw [opened]
  rfl

section Attributes

variable {records : List (AttributeKey × AttributeValue)}
variable (held : system.HoldsAttributes records)
include held

/-- The attributes that a volume holds ascend. -/
theorem HoldsAttributes.ascending :
    records.Pairwise fun left right => AttributeKey.compare left.1 right.1 = .lt := by
  cases held with
  | absent _ => exact List.Pairwise.nil
  | kept opened holds =>
    have ascending := holds.ascending
    unfold Tree.Before at ascending
    rwa [schema_of_attributesTree opened] at ascending

/-- The attributes of a file on a volume are collected completely. -/
theorem HoldsAttributes.attributesOf_direct (file : UInt32) :
    ((system.direct (m := Id)).attributesOf file).run =
      .ok (AttributeKey.belongingTo records file) := by
  rw [Inspection.attributesOf, run_bind_direct]
  cases held with
  | absent opened =>
    rw [direct_attributes opened]
    rfl
  | kept opened holds =>
    rw [direct_attributes opened]
    exact Tree.attributesOf_direct (schema_of_attributesTree opened) holds file

end Attributes

/-- **Listings are complete.** Where the catalog and the attributes tree are well-formed, listing
a number gives exactly the folders and files under it, and collecting its attributes gives
exactly those of its file, each once and in the order of its tree. It does not matter whether
the number exists, how its records are spread over leaves, how many nodes are cached, or what
was asked before. -/
theorem listings_complete {tree : Tree CatalogKey CatalogRecord}
    {catalog : List (CatalogKey × CatalogRecord)}
    {attributes : List (AttributeKey × AttributeValue)} (opened : system.catalogTree = .ok tree)
    (holds : tree.Holds catalog) (held : system.HoldsAttributes attributes) (cnid : UInt32) :
    let children := Catalog.childrenIn catalog cnid
    let found := AttributeKey.belongingTo attributes cnid
    (∀ (capacity : Nat) (queries : List Query),
      let inspection := system.remembering (m := Id)
      let history := ((inspection.answers queries).run (.empty capacity)).2
      ((inspection.listFolder cnid none).run.run history).1 = .ok (children.map .ok) ∧
        ((inspection.attributesOf cnid).run.run history).1 = .ok found) ∧
      children.Pairwise (fun left right =>
        Catalog.compareKeys (Catalog.isCaseSensitive system.isHfsx tree.header) left.key right.key =
          .lt) ∧
      found.Pairwise (fun left right => (left.1.name.compareBinary right.1.name).then
        (compare left.1.startBlock right.1.startBlock) = .lt) := by
  intro children found
  have schema := schema_of_catalogTree opened
  refine ⟨fun capacity queries => ?_, ?_, ?_⟩
  · intro inspection history
    have faithful : Shelf.Faithful system history :=
      (system.replies_of_faithful (Shelf.faithful_empty system capacity) queries).2
    have same := system.remembering_direct
    have listed := (direct_asked opened (·.listFolder cnid none)).trans
      (Tree.listFolder_direct schema holds cnid)
    have collected := held.attributesOf_direct cnid
    constructor
    · exact (system.faithfully.holds_run (same.listFolder cnid none) history faithful).1.trans listed
    · exact (system.faithfully.holds_run (same.attributesOf cnid) history faithful).1.trans collected
  · have ascending := holds.ascending
    unfold Tree.Before at ascending
    rw [schema] at ascending
    exact List.pairwise_map.mpr (ascending.filter _)
  · refine (held.ascending.filter _).imp_of_mem ?_
    intro left right leftMember rightMember before
    have leftFile : left.1.fileId = cnid := by simpa using (List.mem_filter.mp leftMember).2
    have rightFile : right.1.fileId = cnid := by simpa using (List.mem_filter.mp rightMember).2
    rwa [AttributeKey.compare_of_file (leftFile.trans rightFile.symm)] at before

section Sample

/-! The volume whose paths lead back, with attributes behind its catalog. -/

/-- The attributes of the folder and of the file in it. -/
def sampleAttributes : List (AttributeKey × Bytes) :=
  [(⟨16, 0, .ofText "a"⟩, [1, 2]), (⟨16, 0, .ofText "b"⟩, [3, 4]), (⟨17, 0, .ofText "a"⟩, [5, 6])]

/-- The stored form of an attribute behind its key. -/
def attributeBytes (key : AttributeKey) (data : Bytes) : Bytes :=
  Word.bytes (UInt16.ofNat key.encode.length) ++ key.encode ++ AttributeValue.encodeInline data

/-- The bytes of the volume. -/
def attributedImage : Bytes :=
  sampleImage ++ Tree.nodeBytes 1024 0 1 0 [Stored.encode (sampleHeader 1024 3)] ++
    Tree.nodeBytes 1024 0 255 1 (sampleAttributes.map fun (key, data) => attributeBytes key data)

/-- The volume. -/
def attributed : FileSystem :=
  { sample with
    window := ⟨some 5120, fun offset wanted => .ok ((attributedImage.drop offset).take wanted)⟩
    header := { sample.header with attributesFile := sampleFork 2048 3 2 } }

/-- A tree of one leaf holds the records of that leaf. -/
theorem holds_of_sampleHeader {Key Value : Type} {tree : Tree Key Value} {size : UInt16}
    {count : UInt32} {records : List (Key × Value)} (occupied : count ≠ 0)
    (found : tree.header = sampleHeader size count ∧ (tree.nodeAt 1).kind = .leaf ∧
      (tree.nodeAt 1).forwardLink = 0 ∧ tree.recordsOf (tree.nodeAt 1) = records)
    (ascending : records.Pairwise fun left right => tree.Before left.1 right.1) :
    tree.Holds records := by
  obtain ⟨header, kind, last, rfl⟩ := found
  have stored : tree.stored 1 = .ok (tree.nodeAt 1) := Tree.stored_nodeAt (by rw [kind]; decide)
  have root : tree.header.rootNode = 1 := by rw [header]; rfl
  have first : tree.header.firstLeafNode = 1 := by rw [header]; rfl
  refine .of_leaf ?_ ?_ (first.trans root.symm) (by rwa [root]) kind last ascending
  · rw [root]
    decide
  · rw [header]
    exact occupied

/-- A catalog that opens with the description of a tree of one leaf holds the records of it. -/
theorem holds_of_catalogTree {system : FileSystem} {count : UInt32}
    {records : List (CatalogKey × CatalogRecord)} (occupied : count ≠ 0)
    (found : (system.catalogTree.toOption.map fun tree => decide
      (tree.header = sampleHeader 1024 count ∧ (tree.nodeAt 1).kind = .leaf ∧
        (tree.nodeAt 1).forwardLink = 0 ∧ tree.recordsOf (tree.nodeAt 1) = records)) = some true)
    (ascending : records.Pairwise fun left right => Catalog.compareKeys
      (Catalog.isCaseSensitive system.isHfsx (sampleHeader 1024 count)) left.1 right.1 = .lt) :
    ∃ tree, system.catalogTree = .ok tree ∧ tree.header = sampleHeader 1024 count ∧
      tree.Holds records := by
  cases opened : system.catalogTree with
  | error cause =>
    rw [opened] at found
    cases found
  | ok tree =>
    rw [opened] at found
    have leaf := of_decide_eq_true (Option.some.inj found)
    refine ⟨tree, rfl, leaf.1, holds_of_sampleHeader occupied leaf ?_⟩
    unfold Tree.Before
    rwa [schema_of_catalogTree opened, leaf.1]

/-- Its catalog opens, and holds what it did without attributes. -/
theorem attributed_catalog :
    ∃ tree, attributed.catalogTree = .ok tree ∧ tree.header = sampleHeader 1024 6 ∧
      tree.Holds sampleRecords :=
  holds_of_catalogTree (by decide) (by decide +kernel) (by decide +kernel)

/-- So do its attributes. -/
theorem attributed_attributes : attributed.HoldsAttributes
    (sampleAttributes.map fun (key, data) => (key, .inline data)) := by
  have found : (attributed.attributesTree.toOption.map fun kept => kept.map fun tree => decide
      (tree.header = sampleHeader 1024 3 ∧ (tree.nodeAt 1).kind = .leaf ∧
        (tree.nodeAt 1).forwardLink = 0 ∧ tree.recordsOf (tree.nodeAt 1) =
          sampleAttributes.map fun (key, data) => (key, .inline data))) =
      some (some true) := by decide +kernel
  rcases opened : attributed.attributesTree with cause | _ | tree
  · rw [opened] at found
    cases found
  · rw [opened] at found
    cases found
  · rw [opened] at found
    have leaf := of_decide_eq_true (Option.some.inj (Option.some.inj found))
    refine .kept opened (holds_of_sampleHeader (by decide) leaf ?_)
    unfold Tree.Before
    rw [schema_of_attributesTree opened]
    decide +kernel

/-- The folder has its file listed, and its own attributes collected. -/
theorem listings_complete_sample :
    let inspection := attributed.remembering (m := Id)
    ((inspection.listFolder 16 none).run.run (.empty 1)).1 =
        .ok [.ok ⟨⟨16, .ofText "x"⟩, .file (sampleFile 17)⟩] ∧
      ((inspection.attributesOf 16).run.run (.empty 1)).1 =
        .ok [(⟨16, 0, .ofText "a"⟩, .inline [1, 2]), (⟨16, 0, .ofText "b"⟩, .inline [3, 4])] := by
  intro inspection
  obtain ⟨tree, opened, _, holds⟩ := attributed_catalog
  obtain ⟨answers, _⟩ := listings_complete opened holds attributed_attributes 16
  exact answers 1 []

end Sample

end FileSystem

end HfsPlus
