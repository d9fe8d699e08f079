import HfsPlus.Proofs.FileSystem.Ancestry

/-!
# Paths lead back

A catalog is opened from the bytes of a volume, and with it the order of its names is
chosen. Where its threads and names are consistent, every number has a path, and the path
leads to the folder or file of the number, whatever was asked of the file system before.
-/

namespace HfsPlus

/-- An opened tree has the records that were chosen for its header. -/
theorem Tree.schema_of_ofStream {Key Value : Type} {name : String}
    {configure : TreeHeader → Id (Schema Key Value)} {stream : ForkStream} {id : UInt32}
    {tree : Tree Key Value}
    (opened : (Tree.ofStream name configure stream id : ExceptT Error Id _).run = .ok tree) :
    tree.schema = (configure tree.header).run := by
  obtain ⟨head, _, opened⟩ := run_bind_eq_ok.mp opened
  obtain ⟨descriptor, _, opened⟩ := run_bind_eq_ok.mp opened
  dsimp only at opened
  split at opened
  · obtain ⟨_, refused, _⟩ := run_bind_eq_ok.mp opened
    cases refused
  obtain ⟨header, _, opened⟩ := run_bind_eq_ok.mp opened
  split at opened
  · obtain ⟨_, refused, _⟩ := run_bind_eq_ok.mp opened
    cases refused
  rw [run_noted_if] at opened
  obtain ⟨bytes, _, opened⟩ := run_bind_eq_ok.mp opened
  obtain ⟨node, _, opened⟩ := run_bind_eq_ok.mp opened
  obtain ⟨schema, chosen, opened⟩ := run_bind_eq_ok.mp opened
  obtain ⟨⟩ := opened
  exact (Except.ok.inj chosen).symm

namespace FileSystem

variable {system : FileSystem} {tree : Tree CatalogKey CatalogRecord}

/-- The catalog of a volume compares names as the volume and its header say. -/
theorem schema_of_catalogTree (opened : system.catalogTree = .ok tree) :
    tree.schema = Catalog.schema (Catalog.isCaseSensitive system.isHfsx tree.header) := by
  obtain ⟨stream, _, opened⟩ := run_bind_eq_ok.mp opened
  rw [Tree.schema_of_ofStream opened, Catalog.configure]
  split <;> rfl

/-- Without a shelf the overflow tree is come by as it was opened. -/
theorem direct_extents (system : FileSystem) :
    (system.direct (m := Id)).extents.run = system.extentsTree.map Tree.direct := by
  change (Tree.direct <$> system.openExtents : ExceptT Error Id _).run = _
  rw [map_eq_pure_bind, run_bind_direct]
  change system.extentsTree.bind _ = _
  cases system.extentsTree <;> rfl

/-- Without a shelf the catalog is come by as it was opened. -/
theorem direct_catalog (opened : system.catalogTree = .ok tree) :
    (system.direct (m := Id)).catalog.run = .ok tree.direct := by
  change (Tree.direct <$> system.openCatalog (system.direct (m := Id)).extents :
    ExceptT Error Id _).run = _
  rw [map_eq_pure_bind, run_bind_direct]
  change system.catalogTree.bind _ = _
  rw [opened]
  rfl

/-- Without a shelf, what is asked of the catalog is asked of the opened tree. -/
theorem direct_asked {α : Type} (opened : system.catalogTree = .ok tree)
    (ask : Access Id CatalogKey CatalogRecord → ExceptT Error Id α) :
    ((system.direct (m := Id)).catalog >>= ask).run = (ask tree.direct).run := by
  rw [run_bind_direct, direct_catalog opened]
  rfl

/-- Whatever was asked before, what is asked of the catalog in the same way as without a shelf is
asked of the opened tree. -/
theorem asked_of_opened {α : Type} (opened : system.catalogTree = .ok tree)
    {left : ExceptT Error (StateT Shelf Id) α}
    {ask : Access Id CatalogKey CatalogRecord → ExceptT Error Id α}
    (same : (system.faithfully.exceptT Error).holds Eq left
      ((system.direct (m := Id)).catalog >>= ask))
    (capacity : Nat) (queries : List Query) :
    (left.run.run (((system.remembering (m := Id)).answers queries).run (.empty capacity)).2).1 =
      (ask tree.direct).run := by
  have faithful := (system.replies_of_faithful (Shelf.faithful_empty system capacity) queries).2
  exact (system.faithfully.holds_run same _ faithful).1.trans (direct_asked opened _)

/-- **Paths lead back.** In a well-formed catalog whose header counts its records, let
threads lead from a number to the root folder and names lead back. Then the number has a
path, and the path leads to the entry at which the number is looked up, which has that
number. This does not depend on what was asked before, or on how many nodes are
cached. -/
theorem path_round_trip (opened : system.catalogTree = .ok tree) {leaves : List Node}
    (wellFormed : tree.WellFormed leaves)
    (counted : tree.header.leafRecords.toNat = (tree.recordsIn leaves).length) {count : Nat}
    {number : Nat → UInt32} {name : Nat → Name}
    (ancestry : Catalog.Ancestry tree leaves count number name) :
    ∃ path entry, entry.record.cnid? = some (number 0) ∧
      (number 0 = rootFolderId → path = "/") ∧
      ∀ (capacity : Nat) (queries : List Query),
        let inspection := system.remembering (m := Id)
        let history := ((inspection.answers queries).run (.empty capacity)).2
        ((inspection.pathOf (number 0)).run.run history).1 = .ok (some path) ∧
          ((inspection.resolvePath path).run.run history).1 = .ok (some entry) ∧
          ((inspection.lookupCnid (number 0)).run.run history).1 = .ok (some entry) := by
  have schema := schema_of_catalogTree opened
  have ordered : Std.TransCmp tree.schema.compare := by
    rw [schema]
    exact inferInstanceAs (Std.TransCmp (Catalog.compareKeys _))
  obtain ⟨path, entry, climbed, resolved, looked, itsNumber, root⟩ :=
    Catalog.round_trip wellFormed ancestry schema counted
  refine ⟨path, entry, itsNumber, root, fun capacity queries => ?_⟩
  intro inspection history
  have faithful : Shelf.Faithful system history :=
    (system.replies_of_faithful (Shelf.faithful_empty system capacity) queries).2
  have same := system.remembering_direct
  refine ⟨?_, ?_, ?_⟩
  · exact (system.faithfully.holds_run (same.pathOf (number 0)) history faithful).1.trans
      ((direct_asked opened _).trans climbed)
  · exact (system.faithfully.holds_run (same.resolvePath path) history faithful).1.trans
      ((direct_asked opened _).trans resolved)
  · exact (system.faithfully.holds_run (same.lookupCnid (number 0)) history faithful).1.trans
      ((direct_asked opened _).trans looked)

section Sample

/-! A volume with a folder whose name holds a slash, and a file in it. -/

/-- The stored form of a catalog record behind its key. -/
def recordBytes (key : CatalogKey) (record : CatalogRecord) : Bytes :=
  let value :=
    match record with
    | .folder folder => Stored.encode folder
    | .file file => Stored.encode file
    | .folderThread thread => thread.encode .folderThread
    | .fileThread thread => thread.encode .fileThread
  Word.bytes (UInt16.ofNat key.encode.length) ++ key.encode ++ value

/-- A folder of which nothing is known but its number. -/
def sampleFolder (cnid : UInt32) : CatalogFolder :=
  { Stored.zero CatalogFolder with recordType := 1, folderId := cnid }

/-- A file of which nothing is known but its number. -/
def sampleFile (cnid : UInt32) : CatalogFile :=
  { Stored.zero CatalogFile with recordType := 2, fileId := cnid }

/-- The root folder, a folder in it and a file in that, each with its thread. -/
def sampleRecords : List (CatalogKey × CatalogRecord) :=
  [(⟨1, .ofText "root"⟩, .folder (sampleFolder 2)),
    (.thread 2, .folderThread ⟨1, .ofText "root"⟩),
    (⟨2, .ofText "a/b"⟩, .folder (sampleFolder 16)),
    (.thread 16, .folderThread ⟨2, .ofText "a/b"⟩),
    (⟨16, .ofText "x"⟩, .file (sampleFile 17)),
    (.thread 17, .fileThread ⟨16, .ofText "x"⟩)]

/-- The description of a tree of at most one leaf. -/
def sampleHeader (nodeSize : UInt16) (records : UInt32) : TreeHeader :=
  { Stored.zero TreeHeader with
    treeDepth := 1, rootNode := 1, leafRecords := records, firstLeafNode := 1, lastLeafNode := 1
    nodeSize := nodeSize, maxKeyLength := 516, totalNodes := 2, attributes := 6 }

/-- A block with an overflow tree without records, and the catalog behind it. -/
def sampleImage : Bytes :=
  Tree.nodeBytes 512 0 1 0 [Stored.encode (sampleHeader 512 0)] ++ List.replicate 512 0 ++
    Tree.nodeBytes 1024 0 1 0 [Stored.encode (sampleHeader 1024 6)] ++
    Tree.nodeBytes 1024 0 255 1 (sampleRecords.map fun (key, record) => recordBytes key record)

/-- The data of a fork in one run. -/
def sampleFork (size : UInt64) (startBlock blockCount : UInt32) : ForkData where
  logicalSize := size
  clumpSize := 0
  totalBlocks := blockCount
  extents := (Vector.replicate 8 ⟨0, 0⟩).set 0 ⟨startBlock, blockCount⟩

/-- The volume. -/
def sample : FileSystem where
  window := ⟨some 3072, fun offset wanted => .ok ((sampleImage.drop offset).take wanted)⟩
  header :=
    { Stored.zero VolumeHeader with
      blockSize := 1024, extentsFile := sampleFork 512 0 1, catalogFile := sampleFork 2048 1 2 }
  signature := .hfsPlus
  wrapper := none

/-- Its catalog. -/
def sampleCatalog : Tree CatalogKey CatalogRecord :=
  match sample.catalogTree with
  | .ok tree => tree
  | .error _ => ⟨Catalog.schema true, ⟨sample.window, .ofData (sampleFork 0 0 0) .data 0 0⟩, 0,
    sampleHeader 0 0, []⟩

/-- The catalog opens. -/
theorem sample_opened : sample.catalogTree = .ok sampleCatalog := by
  have found : sampleCatalog.id = catalogFileId := by decide +kernel
  unfold sampleCatalog at found ⊢
  cases opened : sample.catalogTree with
  | ok tree => rfl
  | error cause =>
    rw [opened] at found
    simp [catalogFileId] at found

/-- The leaf of the catalog and the description of the tree. -/
theorem sample_leaf : sampleCatalog.header = sampleHeader 1024 6 ∧
    (sampleCatalog.nodeAt 1).kind = .leaf ∧ (sampleCatalog.nodeAt 1).number = 1 ∧
    (sampleCatalog.nodeAt 1).forwardLink = 0 := by decide +kernel

/-- The records of the catalog. -/
theorem sample_records : sampleCatalog.recordsIn [sampleCatalog.nodeAt 1] = sampleRecords := by
  decide +kernel

/-- Names in the catalog are compared with their case folded. -/
theorem sample_schema : sampleCatalog.schema = Catalog.schema false :=
  schema_of_catalogTree sample_opened

/-- The catalog is well-formed. -/
theorem sample_wellFormed : sampleCatalog.WellFormed [sampleCatalog.nodeAt 1] := by
  obtain ⟨header, kind, itsNumber, last⟩ := sample_leaf
  have stored : sampleCatalog.stored 1 = _ := Tree.stored_nodeAt (by rw [kind]; decide)
  refine ⟨?_, ?_, ?_, ?_, ?_, ?_⟩
  · rw [header]
    decide
  · rw [header]
    decide
  · rw [header]
    decide
  · rw [header]
    exact .leaf stored kind
  · rw [header]
    exact ⟨by decide, itsNumber.symm, last⟩
  · rw [sample_records]
    unfold Tree.Before
    rw [sample_schema]
    decide +kernel

/-- A record of the catalog is kept under its key. -/
theorem sample_kept {key : CatalogKey} {record : CatalogRecord}
    (member : (key, record) ∈ sampleRecords) :
    sampleCatalog.Kept [sampleCatalog.nodeAt 1] key record := by
  refine ⟨key, sample_records ▸ member, ?_⟩
  rw [sample_schema]
  change Catalog.compareKeys false key key = .eq
  exact Std.ReflCmp.compare_self

/-- The file lies in the folder, and the folder in the root folder. -/
theorem sample_ancestry : Catalog.Ancestry sampleCatalog [sampleCatalog.nodeAt 1] 2
    (fun place => [17, 16].getD place 2)
    (fun place => [.ofText "x", .ofText "a/b"].getD place .empty) where
  ends := rfl
  below := by decide
  threaded := by
    rintro (_ | _ | place) within
    · exact ⟨.fileThread ⟨16, .ofText "x"⟩, sample_kept (by decide), rfl⟩
    · exact ⟨.folderThread ⟨2, .ofText "a/b"⟩, sample_kept (by decide), rfl⟩
    · omega
  entered := by
    rintro (_ | _ | place) within
    · exact ⟨.file (sampleFile 17), sample_kept (by decide), rfl, by omega⟩
    · exact ⟨.folder (sampleFolder 16), sample_kept (by decide), rfl, fun _ => ⟨_, rfl⟩⟩
    · omega
  rooted := ⟨⟨1, .ofText "root"⟩, sampleFolder 2,
    ⟨.folderThread ⟨1, .ofText "root"⟩, sample_kept (by decide), rfl⟩, sample_kept (by decide), rfl⟩
  spellable := by
    rintro (_ | _ | place) within
    · exact ⟨by decide, by decide, by decide⟩
    · exact ⟨by decide, by decide, by decide⟩
    · omega

/-- The file has a path that leads to it. -/
theorem path_round_trip_sample :
    ∃ path entry, entry.record.cnid? = some 17 ∧
      (((sample.remembering (m := Id)).pathOf 17).run.run (.empty 0)).1 = .ok (some path) ∧
      (((sample.remembering (m := Id)).resolvePath path).run.run (.empty 0)).1 =
        .ok (some entry) ∧
      (((sample.remembering (m := Id)).lookupCnid 17).run.run (.empty 0)).1 =
        .ok (some entry) := by
  have counted : sampleCatalog.header.leafRecords.toNat =
      (sampleCatalog.recordsIn [sampleCatalog.nodeAt 1]).length := by
    rw [sample_records, sample_leaf.1]
    decide
  obtain ⟨path, entry, itsNumber, _, answers⟩ :=
    path_round_trip sample_opened sample_wellFormed counted sample_ancestry
  exact ⟨path, entry, itsNumber, answers 0 []⟩

end Sample

end FileSystem

end HfsPlus
