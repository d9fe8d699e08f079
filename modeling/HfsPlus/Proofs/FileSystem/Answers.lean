import HfsPlus.FileSystem.Content
import HfsPlus.FileSystem.Summary
import HfsPlus.Proofs.Tree.Answers

/-!
# Queries depend on the trees alone

A query reaches its file system through an `Inspection`, that is, through the window and
the accesses to the trees. Two inspections of one file system whose trees agree answer
every query alike. Opening a tree is itself such a computation: it takes the window and,
for the overflow records of the tree's own fork, the overflow tree.
-/

namespace HfsPlus

variable {M N : Type → Type} [Monad M] [Monad N] [Logging M] [Logging N]
variable [LawfulMonad M] [LawfulMonad N] {agreement : Agreement M N}

namespace Agreement.Accesses

section Overflow

variable {left : Access M ExtentKey ExtentRecord} {right : Access N ExtentKey ExtentRecord}

/-- Agreeing accesses are overflow sources that answer alike. -/
theorem overflowSource (same : agreement.Accesses left right) :
    agreement.Sources left.overflowSource right.overflowSource := fun _ _ _ =>
  holds_next _ (same.find _) fun _ => holds_same _ _

end Overflow

section Catalog

variable {left : Access M CatalogKey CatalogRecord} {right : Access N CatalogKey CatalogRecord}
variable (same : agreement.Accesses left right)
include same

/-- A record is found by its name alike. -/
theorem findRecord (parent : UInt32) (name : Name) :
    (agreement.exceptT Error).holds Eq (left.findRecord parent name)
      (right.findRecord parent name) :=
  holds_next _ (same.find _) fun _ => holds_same _ _

/-- A thread is found alike. -/
theorem findThread (cnid : UInt32) :
    (agreement.exceptT Error).holds Eq (left.findThread cnid) (right.findThread cnid) :=
  holds_next _ (same.find _) fun _ => holds_same _ _

/-- A number leads to the same entry. -/
theorem lookupCnid (cnid : UInt32) :
    (agreement.exceptT Error).holds Eq (left.lookupCnid cnid) (right.lookupCnid cnid) := by
  refine holds_next _ (same.findThread cnid) ?_
  rintro (_ | thread)
  · exact holds_same _ none
  · exact same.findRecord _ _

/-- A path leads to the same entry, from whichever entry it starts. Induct over its
components. -/
theorem follow (path : String) (components : List String) (entry : CatalogEntry) :
    (agreement.exceptT Error).holds Eq (left.follow path components entry)
      (right.follow path components entry) := by
  induction components generalizing entry with
  | nil => exact holds_same _ _
  | cons component later inductionHypothesis =>
    unfold Access.follow
    cases entry.record with
    | folder folder =>
      refine holds_next _ (same.findRecord _ _) ?_
      rintro (_ | next)
      · exact holds_same _ none
      · exact inductionHypothesis next
    | file file => exact holds_noted _ _ (holds_same _ none)
    | folderThread thread => exact holds_noted _ _ (holds_same _ none)
    | fileThread thread => exact holds_noted _ _ (holds_same _ none)

/-- A path leads to the same entry from the root on. -/
theorem resolvePath (path : String) :
    (agreement.exceptT Error).holds Eq (left.resolvePath path) (right.resolvePath path) := by
  refine holds_next _ (same.lookupCnid _) ?_
  rintro (_ | root)
  · exact holds_same _ none
  · exact same.follow _ _ _

/-- Threads lead up by the same names. Induct over the threads that may still be
followed. -/
theorem climb (start : UInt32) (threads : Nat) (current : UInt32) (names : List String) :
    (agreement.exceptT Error).holds Eq (left.climb start threads current names)
      (right.climb start threads current names) := by
  induction threads generalizing current names with
  | zero =>
    unfold Access.climb
    split
    · exact holds_same _ _
    · exact agreement.holds_throw _
  | succ threads inductionHypothesis =>
    unfold Access.climb
    split
    · exact holds_same _ _
    · refine holds_next _ (same.findThread current) ?_
      rintro (_ | thread)
      · exact holds_same _ none
      · dsimp only
        split
        · exact holds_same _ none
        · exact inductionHypothesis _ _

/-- The same path leads to a number. -/
theorem pathOf (cnid : UInt32) :
    (agreement.exceptT Error).holds Eq (left.pathOf cnid) (right.pathOf cnid) := by
  unfold Access.pathOf Access.climbBound
  rw [same.tree]
  exact holds_next _ (same.climb _ _ _ _) fun _ => holds_same _ _

/-- A folder lists the same entries. -/
theorem listFolder (folder : UInt32) (limit : Option Nat) :
    (agreement.exceptT Error).holds Eq (left.listFolder folder limit)
      (right.listFolder folder limit) := by
  refine holds_next _ (same.search _) fun start => ?_
  refine holds_next _ (same.recordsFrom _) fun cursor => ?_
  exact holds_next _ (agreement.holds_lift (same.fold _ _ cursor)) fun _ => holds_same _ _

end Catalog

/-- A file has the same attributes. -/
theorem attributesOf {left : Access M AttributeKey AttributeValue}
    {right : Access N AttributeKey AttributeValue} (same : agreement.Accesses left right)
    (file : UInt32) :
    (agreement.exceptT Error).holds Eq (left.attributesOf file) (right.attributesOf file) := by
  refine holds_next _ (same.search _) fun start => ?_
  refine holds_next _ (same.recordsFrom _) fun cursor => ?_
  exact holds_next _ (agreement.holds_mk (same.fold _ _ cursor)) fun _ => holds_same _ _

end Agreement.Accesses

namespace Agreement

variable (agreement)

/-- A tree is opened from its stream with the same outcome, if its records are chosen
alike. -/
theorem ofStream {Key Value : Type} (name : String)
    {configureLeft : TreeHeader → M (Schema Key Value)}
    {configureRight : TreeHeader → N (Schema Key Value)}
    (alike : ∀ header, agreement.holds Eq (configureLeft header) (configureRight header))
    (stream : ForkStream) (id : UInt32) :
    (agreement.exceptT Error).holds Eq (Tree.ofStream name configureLeft stream id)
      (Tree.ofStream name configureRight stream id) := by
  refine holds_next _ (agreement.stream_readExact stream _ _) fun head => ?_
  refine holds_next _ (agreement.holds_outcome _) fun descriptor => ?_
  split
  · exact agreement.holds_refused _
  · refine holds_next _ (agreement.holds_outcome _) fun header => ?_
    dsimp only
    split
    · exact agreement.holds_refused _
    · refine holds_noted_if _ _ ?_
      refine holds_next _ (agreement.stream_readExact stream _ _) fun bytes => ?_
      refine holds_next _ (agreement.holds_outcome _) fun node => ?_
      refine holds_next _ (agreement.holds_lift (alike header)) fun schema => ?_
      exact holds_noted _ _ (holds_same _ _)

omit [LawfulMonad M] [LawfulMonad N] in
/-- The records of a catalog are chosen alike. -/
theorem configure (hfsx : Bool) (header : TreeHeader) :
    agreement.holds Eq (Catalog.configure hfsx header : M _) (Catalog.configure hfsx header) := by
  exact agreement.holds_noted_if _ (agreement.holds_same _)

section Opening

variable {extentsLeft : ExceptT Error M (Access M ExtentKey ExtentRecord)}
variable {extentsRight : ExceptT Error N (Access N ExtentKey ExtentRecord)}
variable (extents : (agreement.exceptT Error).holds agreement.Accesses extentsLeft extentsRight)
variable (system : FileSystem)

/-- The overflow tree is opened with the same outcome. -/
theorem openExtents : (agreement.exceptT Error).holds Eq
    (system.openExtents : ExceptT Error M (Tree ExtentKey ExtentRecord)) system.openExtents := by
  refine holds_next _ (agreement.sources_none.ofFork _ _) fun stream => ?_
  exact agreement.ofStream _ (fun _ => agreement.holds_same _) _ _

include extents

/-- The stream of a tree's file is made ready with the same outcome. -/
theorem treeStream (data : ForkData) (fileId : UInt32) :
    (agreement.exceptT Error).holds Eq (system.treeStream extentsLeft data fileId)
      (system.treeStream extentsRight data fileId) := by
  unfold FileSystem.treeStream
  dsimp only
  split
  · exact agreement.sources_none.ofFork _ _
  · exact holds_bind _ extents fun _ _ same => same.overflowSource.ofFork _ _

/-- The catalog is opened with the same outcome. -/
theorem openCatalog : (agreement.exceptT Error).holds Eq (system.openCatalog extentsLeft)
    (system.openCatalog extentsRight) := by
  refine holds_next _ (agreement.treeStream extents system _ _) fun stream => ?_
  exact agreement.ofStream _ (agreement.configure _) _ _

/-- The attributes tree is opened with the same outcome. -/
theorem openAttributes : (agreement.exceptT Error).holds Eq (system.openAttributes extentsLeft)
    (system.openAttributes extentsRight) := by
  unfold FileSystem.openAttributes
  split
  · exact holds_noted _ _ (holds_same _ none)
  · refine holds_next _ (agreement.treeStream extents system _ _) fun stream => ?_
    exact holds_map _ _ _ (agreement.ofStream _ (fun _ => agreement.holds_same _) _ _)
      fun _ _ same => congrArg some same

/-- The tree of hot files is looked for in the catalog and opened with the same
outcome. -/
theorem openHotFiles {catalogLeft : ExceptT Error M (Access M CatalogKey CatalogRecord)}
    {catalogRight : ExceptT Error N (Access N CatalogKey CatalogRecord)}
    (catalog : (agreement.exceptT Error).holds agreement.Accesses catalogLeft catalogRight) :
    (agreement.exceptT Error).holds Eq (system.openHotFiles extentsLeft catalogLeft)
      (system.openHotFiles extentsRight catalogRight) := by
  refine holds_bind _ catalog fun left right same => ?_
  refine holds_next _ (same.find _) ?_
  rintro (_ | ⟨key, folder | file | thread | thread⟩)
  · exact holds_same _ none
  · exact holds_same _ none
  · refine holds_next _ (agreement.treeStream extents system _ _) fun stream => ?_
    refine holds_next _ (agreement.ofStream _ (fun _ => agreement.holds_same _) _ _) fun tree => ?_
    refine holds_next _ (agreement.holds_outcome _) fun info => ?_
    dsimp only
    split
    · exact agreement.holds_refused _
    · exact holds_same _ _
  · exact holds_same _ none
  · exact holds_same _ none

end Opening

end Agreement

section Counting

variable {left : OverflowSource M} {right : OverflowSource N} (alike : agreement.Sources left right)
variable (blockSize : Nat)
include alike

namespace Agreement.Sources

/-- A fork is counted alike. -/
theorem addFork (name : Name) (file : CatalogFile) (summary : VolumeSummary) (kind : ForkKind) :
    (agreement.exceptT Error).holds Eq (VolumeSummary.addFork left blockSize name file summary kind)
      (VolumeSummary.addFork right blockSize name file summary kind) := by
  unfold VolumeSummary.addFork
  dsimp only
  split
  · exact holds_same _ _
  · refine holds_next _ (agreement.holds_outcome _) fun summary => ?_
    have loaded := (agreement.stateT Fork).holds_run alike.loadAll
    refine holds_next _ (agreement.holds_lift (agreement.holds_from loaded _)) ?_
    rintro ⟨cause | records, fork⟩
    · exact holds_noted _ _ (agreement.holds_outcome _)
    · exact agreement.holds_outcome _

/-- A record is counted alike. -/
theorem addRecord (summary : VolumeSummary) (key : CatalogKey) (record : CatalogRecord) :
    (agreement.exceptT Error).holds Eq (VolumeSummary.addRecord left blockSize summary key record)
      (VolumeSummary.addRecord right blockSize summary key record) := by
  cases record with
  | folder folder => exact agreement.holds_outcome _
  | file file =>
    refine holds_next _ (agreement.holds_outcome _) fun summary => ?_
    exact holds_next _ (alike.addFork blockSize _ _ _ _) fun summary =>
      alike.addFork blockSize _ _ _ _
  | folderThread thread => exact agreement.holds_outcome _
  | fileThread thread => exact agreement.holds_outcome _

/-- The records of a leaf are counted alike. Induct over those that are left. -/
theorem addRecords (catalog : Tree CatalogKey CatalogRecord) (node : Node) (records index : Nat)
    (summary : VolumeSummary) :
    (agreement.exceptT Error).holds Eq
      (VolumeSummary.addRecords left blockSize catalog node records index summary)
      (VolumeSummary.addRecords right blockSize catalog node records index summary) := by
  induction records generalizing index summary with
  | zero => exact holds_same _ _
  | succ records inductionHypothesis =>
    unfold VolumeSummary.addRecords
    cases catalog.leafRecord node index with
    | ok record =>
      exact holds_next _ (alike.addRecord blockSize _ _ _) fun summary => inductionHypothesis _ _
    | error cause =>
      exact holds_noted _ _ (holds_next _ (agreement.holds_outcome _) fun summary =>
        inductionHypothesis _ _)

/-- A node of the chain is counted alike. -/
theorem addNode (catalog : Tree CatalogKey CatalogRecord) (summary : VolumeSummary) (node : Node) :
    agreement.holds Eq (VolumeSummary.addNode left blockSize catalog summary node)
      (VolumeSummary.addNode right blockSize catalog summary node) := by
  unfold VolumeSummary.addNode
  split
  · refine agreement.holds_next (agreement.holds_run (alike.addRecords blockSize _ _ _ _ _)) ?_
    rintro (cause | summary) <;> exact agreement.holds_same _
  · exact agreement.holds_same _

end Agreement.Sources

end Counting

/-- Two inspections are of one file system and come by agreeing trees. -/
structure Agreement.Inspections (agreement : Agreement M N) (left : Inspection M)
    (right : Inspection N) : Prop where
  system : left.system = right.system
  extents : (agreement.exceptT Error).holds agreement.Accesses left.extents right.extents
  catalog : (agreement.exceptT Error).holds agreement.Accesses left.catalog right.catalog
  attributes : (agreement.exceptT Error).holds (Option.Rel agreement.Accesses) left.attributes
    right.attributes
  hotFiles : (agreement.exceptT Error).holds
    (Option.Rel fun left right => agreement.Accesses left.1 right.1 ∧ left.2 = right.2)
    left.hotFiles right.hotFiles

namespace Agreement.Inspections

variable {left : Inspection M} {right : Inspection N} (same : agreement.Inspections left right)
include same

/-- In catalogs that are come by alike, a record is found by its name alike. -/
theorem findRecord (parent : UInt32) (name : Name) :
    (agreement.exceptT Error).holds Eq (left.findRecord parent name)
      (right.findRecord parent name) :=
  holds_bind _ same.catalog fun _ _ same => same.findRecord parent name

/-- A number leads to the same entry. -/
theorem lookupCnid (cnid : UInt32) :
    (agreement.exceptT Error).holds Eq (left.lookupCnid cnid) (right.lookupCnid cnid) :=
  holds_bind _ same.catalog fun _ _ same => same.lookupCnid cnid

/-- A path leads to the same entry. -/
theorem resolvePath (path : String) :
    (agreement.exceptT Error).holds Eq (left.resolvePath path) (right.resolvePath path) :=
  holds_bind _ same.catalog fun _ _ same => same.resolvePath path

/-- The same path leads to a number. -/
theorem pathOf (cnid : UInt32) :
    (agreement.exceptT Error).holds Eq (left.pathOf cnid) (right.pathOf cnid) :=
  holds_bind _ same.catalog fun _ _ same => same.pathOf cnid

/-- A folder lists the same entries. -/
theorem listFolder (folder : UInt32) (limit : Option Nat) :
    (agreement.exceptT Error).holds Eq (left.listFolder folder limit)
      (right.listFolder folder limit) :=
  holds_bind _ same.catalog fun _ _ same => same.listFolder folder limit

/-- A file has the same attributes, or none where there is no tree of them. -/
theorem attributesOf (file : UInt32) :
    (agreement.exceptT Error).holds Eq (left.attributesOf file) (right.attributesOf file) := by
  refine holds_bind _ same.attributes ?_
  rintro _ _ (same | _)
  · exact same.attributesOf file
  · exact holds_same _ []

/-- The journal is found in the same place. -/
theorem journalInfo :
    (agreement.exceptT Error).holds Eq left.journalInfo right.journalInfo := by
  unfold Inspection.journalInfo
  rw [same.system]
  dsimp only
  split
  · exact holds_same _ none
  · refine holds_next _ (agreement.window_readExact _ _ _) fun block => ?_
    exact holds_map _ _ _ (agreement.holds_outcome _) fun _ _ same => congrArg some same

/-- A fork delivers the same bytes, and is known as far afterwards. -/
theorem readFork (offset wanted : Nat) :
    ((agreement.stateT Fork).exceptT Error).holds Eq (left.readFork offset wanted)
      (right.readFork offset wanted) := by
  unfold Inspection.readFork
  rw [same.system]
  refine holds_bind _ (agreement.beside same.extents) fun _ _ same => ?_
  exact same.overflowSource.readRange _ _ _

/-- A fork is copied by the same chunks. Each of them shortens what is left to copy,
which the induction follows. -/
theorem copyFrom (hasher : Hasher) {takeLeft : Bytes → ExceptT Error M Unit}
    {takeRight : Bytes → ExceptT Error N Unit}
    (alike : ∀ chunk, (agreement.exceptT Error).holds Eq (takeLeft chunk) (takeRight chunk))
    (fork : Fork) (offset remaining : Nat) (hashed : hasher.State) (chunks : List Bytes) :
    agreement.holds Eq (left.copyFrom hasher takeLeft fork offset remaining hashed chunks)
      (right.copyFrom hasher takeRight fork offset remaining hashed chunks) := by
  induction remaining using Nat.strongRecOn generalizing fork offset hashed chunks with
  | ind remaining inductionHypothesis =>
    rw [Inspection.copyFrom, Inspection.copyFrom]
    by_cases complete : remaining = 0
    · rw [if_pos complete, if_pos complete]
      exact agreement.holds_same _
    · rw [if_neg complete, if_neg complete]
      have chunk : agreement.holds Eq ((left.readFork offset left.chunkSize).run.run fork)
          ((right.readFork offset right.chunkSize).run.run fork) := by
        rw [Inspection.chunkSize, Inspection.chunkSize, same.system]
        exact agreement.holds_from ((agreement.stateT Fork).holds_run (same.readFork _ _)) fork
      refine agreement.holds_next chunk ?_
      rintro ⟨cause | _ | ⟨first, rest⟩, fork⟩
      · exact agreement.holds_same _
      · exact agreement.holds_same _
      · refine agreement.holds_next (agreement.holds_run (alike _)) ?_
        rintro (cause | done)
        · exact agreement.holds_same _
        · exact inductionHypothesis _ (by omega) _ _ _ _

/-- A fork is copied as far, and with the same outcome. -/
theorem copyFork (hasher : Hasher) {takeLeft : Bytes → ExceptT Error M Unit}
    {takeRight : Bytes → ExceptT Error N Unit}
    (alike : ∀ chunk, (agreement.exceptT Error).holds Eq (takeLeft chunk) (takeRight chunk))
    (file : CatalogFile) (kind : ForkKind) :
    agreement.holds Eq (left.copyFork hasher file kind takeLeft)
      (right.copyFork hasher file kind takeRight) := by
  unfold Inspection.copyFork
  rw [same.system]
  refine agreement.holds_bind same.extents ?_
  rintro (cause | left) (other | right) related
  · obtain rfl : cause = other := related
    exact agreement.holds_same _
  · exact related.elim
  · exact related.elim
  · refine agreement.holds_next (same.copyFrom hasher alike _ _ _ _ _) ?_
    rintro ⟨fork, chunks, cause | done⟩
    · exact agreement.holds_same _
    · exact agreement.holds_noted _ (agreement.holds_same _)

/-- The volume is counted alike. -/
theorem summary : (agreement.exceptT Error).holds Eq left.summary right.summary := by
  refine holds_bind _ same.catalog fun leftCatalog rightCatalog catalog => ?_
  refine holds_bind _ same.extents fun leftExtents rightExtents extents => ?_
  dsimp only
  rw [catalog.tree, same.system]
  split
  · exact holds_same _ _
  · have walked := catalog.walk false (extents.overflowSource.addNode right.system.blockSize
      rightCatalog.tree) rightCatalog.tree.header.firstLeafNode .empty
    refine holds_next _ (agreement.holds_lift walked) ?_
    rintro ⟨summary, cause | done⟩
    · cases cause with
      | overflow => exact agreement.holds_throw _
      | _ => exact holds_noted _ _ (holds_same _ _)
    · exact holds_same _ _

end Agreement.Inspections

end HfsPlus
