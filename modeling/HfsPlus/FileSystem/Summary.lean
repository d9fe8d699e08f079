import HfsPlus.FileSystem.Catalog

/-!
# Statistics of a volume

A single pass over the leaves of the catalog counts what the volume holds. A
record that cannot be read is counted as damaged and passed over, and so is a fork
whose blocks are not all known. A leaf that cannot be read ends the pass: the
counts are then of what came before it, and the summary says so.

Two rankings come with the counts, the largest files and the forks in the most
pieces. Each keeps the first ten by descending rank, earlier records first among
equals. Totals are 64-bit words, as the sizes on disk are, and nothing keeps a sum of
sizes within a word. Where one is too large, the count overflows and there is no
summary.
-/

namespace HfsPlus

/-- How many entries a ranking keeps. -/
def rankingLength : Nat := 10

/-- Put an item into a ranking of at most `rankingLength` items, behind all items of
at least its rank. -/
def pushRanked {α : Type} (rank : α → UInt64) (ranking : List α) (item : α) : List α :=
  let value := rank item
  if rankingLength ≤ ranking.length && ranking.getLast?.any (fun last => value ≤ rank last) then
    ranking
  else
    let (before, after) := ranking.span fun other => value ≤ rank other
    (before ++ item :: after).take rankingLength

/-- The counts of one kind of fork. -/
structure ForkSummary where
  forks : UInt64
  logicalBytes : UInt64
  allocatedBlocks : UInt64
  /-- Forks in more than one piece. -/
  fragmented : UInt64
  /-- Runs in the forks' own data. -/
  inlineExtents : UInt64
  overflowRecords : UInt64
  deriving DecidableEq, Repr

/-- No forks yet. -/
def ForkSummary.empty : ForkSummary := ⟨0, 0, 0, 0, 0, 0⟩

/-- What is counted of the forks of one kind. -/
inductive ForkCounter where
  | forks
  | logicalBytes
  | allocatedBlocks
  | fragmented
  | inlineExtents
  | overflowRecords
  deriving DecidableEq, Repr

/-- A count of the forks of one kind. -/
def ForkSummary.count (summary : ForkSummary) : ForkCounter → UInt64
  | .forks => summary.forks
  | .logicalBytes => summary.logicalBytes
  | .allocatedBlocks => summary.allocatedBlocks
  | .fragmented => summary.fragmented
  | .inlineExtents => summary.inlineExtents
  | .overflowRecords => summary.overflowRecords

/-- Give a count of the forks of one kind another value. -/
def ForkSummary.set (summary : ForkSummary) (counter : ForkCounter) (value : UInt64) :
    ForkSummary :=
  match counter with
  | .forks => { summary with forks := value }
  | .logicalBytes => { summary with logicalBytes := value }
  | .allocatedBlocks => { summary with allocatedBlocks := value }
  | .fragmented => { summary with fragmented := value }
  | .inlineExtents => { summary with inlineExtents := value }
  | .overflowRecords => { summary with overflowRecords := value }

/-- A file in the ranking by size. -/
structure RankedFile where
  cnid : UInt32
  name : Name
  /-- The sizes of both forks together. -/
  size : UInt64
  deriving DecidableEq, Repr

/-- A fork in the ranking by pieces. -/
structure RankedFork where
  cnid : UInt32
  name : Name
  kind : ForkKind
  extents : Nat
  deriving DecidableEq, Repr

/-- What is counted of a volume. -/
inductive Counter where
  | files
  | folders
  | threadRecords
  | hardLinks
  | directoryHardLinks
  | symbolicLinks
  | aliases
  | emptyFiles
  | emptyFolders
  | invisible
  | damagedRecords
  | ofForks (kind : ForkKind) (counter : ForkCounter)
  deriving DecidableEq, Repr

/-- The statistics of a volume. -/
structure VolumeSummary where
  files : UInt64
  /-- Folders other than the root. -/
  folders : UInt64
  threadRecords : UInt64
  hardLinks : UInt64
  directoryHardLinks : UInt64
  symbolicLinks : UInt64
  aliases : UInt64
  /-- Files without content in either fork. -/
  emptyFiles : UInt64
  emptyFolders : UInt64
  invisible : UInt64
  damagedRecords : UInt64
  data : ForkSummary
  resource : ForkSummary
  largestFiles : List RankedFile
  mostFragmented : List RankedFork
  /-- Whether the pass ended early. -/
  truncated : Bool
  warnings : List String
  deriving DecidableEq, Repr

namespace VolumeSummary

/-- Nothing counted yet. -/
def empty : VolumeSummary :=
  ⟨0, 0, 0, 0, 0, 0, 0, 0, 0, 0, 0, .empty, .empty, [], [], false, []⟩

/-- A count of a volume. -/
def count (summary : VolumeSummary) : Counter → UInt64
  | .files => summary.files
  | .folders => summary.folders
  | .threadRecords => summary.threadRecords
  | .hardLinks => summary.hardLinks
  | .directoryHardLinks => summary.directoryHardLinks
  | .symbolicLinks => summary.symbolicLinks
  | .aliases => summary.aliases
  | .emptyFiles => summary.emptyFiles
  | .emptyFolders => summary.emptyFolders
  | .invisible => summary.invisible
  | .damagedRecords => summary.damagedRecords
  | .ofForks .data counter => summary.data.count counter
  | .ofForks .resource counter => summary.resource.count counter

/-- Give a count of a volume another value. -/
def set (summary : VolumeSummary) (counter : Counter) (value : UInt64) : VolumeSummary :=
  match counter with
  | .files => { summary with files := value }
  | .folders => { summary with folders := value }
  | .threadRecords => { summary with threadRecords := value }
  | .hardLinks => { summary with hardLinks := value }
  | .directoryHardLinks => { summary with directoryHardLinks := value }
  | .symbolicLinks => { summary with symbolicLinks := value }
  | .aliases => { summary with aliases := value }
  | .emptyFiles => { summary with emptyFiles := value }
  | .emptyFolders => { summary with emptyFolders := value }
  | .invisible => { summary with invisible := value }
  | .damagedRecords => { summary with damagedRecords := value }
  | .ofForks .data counter => { summary with data := summary.data.set counter value }
  | .ofForks .resource counter => { summary with resource := summary.resource.set counter value }

/-- Let a count grow, as long as a word holds it. -/
def add (summary : VolumeSummary) (counter : Counter) (amount : UInt64) :
    Except Error VolumeSummary := do
  return summary.set counter (← checkedSum (summary.count counter) amount)

/-- Count one more where a condition holds. -/
def addWhere (summary : VolumeSummary) (condition : Bool) (counter : Counter) :
    Except Error VolumeSummary :=
  if condition then summary.add counter 1 else .ok summary

/-- Count a folder. The root is not counted. -/
def addFolder (summary : VolumeSummary) (folder : CatalogFolder) : Except Error VolumeSummary := do
  if folder.folderId = rootFolderId then return summary
  let summary ← summary.add .folders 1
  let summary ← summary.addWhere (folder.valence == 0) .emptyFolders
  summary.addWhere folder.isInvisible .invisible

/-- Count what a file record says of the file as a whole. A file that is a link of
several kinds counts as the first of hard link, folder link and symbolic link. -/
def addFileRecord (summary : VolumeSummary) (name : Name) (file : CatalogFile) :
    Except Error VolumeSummary := do
  let folderLink := !file.isHardLink && file.isFolderLink
  let symbolicLink := !file.isHardLink && !file.isFolderLink && file.isSymbolicLink
  let summary ← summary.add .files 1
  let summary ← summary.addWhere file.isHardLink .hardLinks
  let summary ← summary.addWhere folderLink .directoryHardLinks
  let summary ← summary.addWhere symbolicLink .symbolicLinks
  let summary ← summary.addWhere file.isAlias .aliases
  let summary ← summary.addWhere file.isInvisible .invisible
  let summary ← summary.addWhere (file.dataFork.isEmpty && file.resourceFork.isEmpty) .emptyFiles
  let size ← checkedSum file.dataFork.logicalSize file.resourceFork.logicalSize
  return { summary with
    largestFiles := pushRanked RankedFile.size summary.largestFiles ⟨file.fileId, name, size⟩ }

/-- Count what a fork's own data says. -/
def addForkData (summary : VolumeSummary) (kind : ForkKind) (data : ForkData) :
    Except Error VolumeSummary := do
  let summary ← summary.add (.ofForks kind .forks) 1
  let summary ← summary.add (.ofForks kind .logicalBytes) data.logicalSize
  let summary ← summary.add (.ofForks kind .allocatedBlocks) data.totalBlocks.toUInt64
  summary.add (.ofForks kind .inlineExtents) (UInt64.ofNat data.extents.used.length)

/-- Count the pieces of a fork whose blocks are all known. -/
def addPieces (summary : VolumeSummary) (name : Name) (file : UInt32) (kind : ForkKind)
    (overflowRecords extents : Nat) : Except Error VolumeSummary := do
  let summary ← summary.add (.ofForks kind .overflowRecords) (UInt64.ofNat overflowRecords)
  let summary ← summary.addWhere (1 < extents) (.ofForks kind .fragmented)
  if extents ≤ 1 then return summary
  return { summary with
    mostFragmented := pushRanked (fun fork => UInt64.ofNat fork.extents) summary.mostFragmented
      ⟨file, name, kind, extents⟩ }

section Counting

variable {m : Type → Type} [Monad m] [Logging m]

/-- Count a fork of a file, unless it is empty. -/
def addFork (overflow : OverflowSource m) (blockSize : Nat) (name : Name) (file : CatalogFile)
    (summary : VolumeSummary) (kind : ForkKind) : ExceptT Error m VolumeSummary := do
  let data := file.fork kind
  if data.isEmpty then return summary
  let summary ← summary.addForkData kind data
  let fork := Fork.ofData data kind file.fileId blockSize
  match ← ExceptT.lift ((Fork.loadAll overflow).run.run fork) with
  | (.ok records, fork) => summary.addPieces name file.fileId kind records fork.extents.length
  | (.error cause, _) => do
    log (.unresolvableFork file.fileId kind cause)
    summary.add .damagedRecords 1

/-- Count a record. -/
def addRecord (overflow : OverflowSource m) (blockSize : Nat) (summary : VolumeSummary)
    (key : CatalogKey) : CatalogRecord → ExceptT Error m VolumeSummary
  | .folder folder => summary.addFolder folder
  | .file file => do
    let summary ← summary.addFileRecord key.name file
    let summary ← addFork overflow blockSize key.name file summary .data
    addFork overflow blockSize key.name file summary .resource
  | .folderThread _ | .fileThread _ => summary.add .threadRecords 1

/-- Count the records of a leaf from `index` on, `left` of them. -/
def addRecords (overflow : OverflowSource m) (blockSize : Nat)
    (catalog : Tree CatalogKey CatalogRecord) (node : Node) :
    (left index : Nat) → VolumeSummary → ExceptT Error m VolumeSummary
  | 0, _, summary => return summary
  | left + 1, index, summary => do
    match catalog.leafRecord node index with
    | .ok (key, record) =>
      let summary ← addRecord overflow blockSize summary key record
      addRecords overflow blockSize catalog node left (index + 1) summary
    | .error cause =>
      log (.damagedRecord node.number index cause)
      let summary ← summary.add .damagedRecords 1
      addRecords overflow blockSize catalog node left (index + 1) summary

/-- Count the records of a node of the chain, which must be a leaf. An overflow leaves
the summary of the nodes before. -/
def addNode (overflow : OverflowSource m) (blockSize : Nat)
    (catalog : Tree CatalogKey CatalogRecord) (summary : VolumeSummary) (node : Node) :
    m (VolumeSummary × Except Error Bool) := do
  if node.kind = .leaf then
    match ← (addRecords overflow blockSize catalog node node.count 0 summary).run with
    | .ok summary => return (summary, .ok true)
    | .error cause => return (summary, .error cause)
  else return (summary, .error (catalog.corrupt node.number (.notLeaf node.kind)))

end Counting

end VolumeSummary

/-- The statistics of a volume. -/
def Inspection.summary {m : Type → Type} [Monad m] [Logging m] (inspection : Inspection m) :
    ExceptT Error m VolumeSummary := do
  let catalog ← inspection.catalog
  let extents ← inspection.extents
  if catalog.tree.isEmpty then return .empty
  let visit := VolumeSummary.addNode extents.overflowSource inspection.system.blockSize catalog.tree
  match ← ExceptT.lift (catalog.walk false visit catalog.tree.header.firstLeafNode .empty) with
  | (summary, .ok ()) => return summary
  | (_, .error .overflow) => throw .overflow
  | (summary, .error cause) =>
    log (.walkStopped cause)
    return { summary with truncated := true, warnings := [cause.message] }

end HfsPlus
