import HfsPlus.FileSystem.Basic
import HfsPlus.Record.Attribute
import HfsPlus.Record.Catalog
import HfsPlus.Record.HotFile
import HfsPlus.Record.Overflow

/-!
# The trees of a file system

Three trees are found through the volume header. The overflow tree must be
described by its own data alone; the forks of the catalog and of the attributes
may have overflow records in it. The tree of hot files is an ordinary file in the
root folder.

Queries are written against an `Inspection`: the file system and a way to come by
each of its trees. `FileSystem.direct` opens a tree each time it is asked for and
reads every node anew. `FileSystem.remembering` opens each tree once, when it is
first needed, and caches its nodes on a `Shelf`. A tree that cannot be opened is
not remembered, so the next query tries again.
-/

namespace HfsPlus

/-- The number of the overflow tree's file. -/
def extentsFileId : UInt32 := 3

/-- The number of the catalog's file. -/
def catalogFileId : UInt32 := 4

/-- The number of the attributes tree's file. -/
def attributesFileId : UInt32 := 8

/-- The name of the file in the root folder that holds the tree of hot files. -/
def hotFilesName : Name := .ofText ".hotfiles.btree"

/-- A file system and a way to come by each of its trees. -/
structure Inspection (m : Type → Type) where
  system : FileSystem
  extents : ExceptT Error m (Access m ExtentKey ExtentRecord)
  catalog : ExceptT Error m (Access m CatalogKey CatalogRecord)
  /-- None if the volume has no attributes. -/
  attributes : ExceptT Error m (Option (Access m AttributeKey AttributeValue))
  /-- None if no hot files are kept; else with the description in the tree. -/
  hotFiles : ExceptT Error m (Option (Access m HotFileKey HotFileRecord × HotFilesInfo))

namespace FileSystem

variable {m : Type → Type} [Monad m] [Logging m]

/-- The stream of a file that holds a tree. Only the overflow tree itself must do
without overflow records. -/
def treeStream (system : FileSystem) (extents : ExceptT Error m (Access m ExtentKey ExtentRecord))
    (data : ForkData) (fileId : UInt32) : ExceptT Error m ForkStream := do
  let fork := Fork.ofData data .data fileId system.blockSize
  if fileId = extentsFileId then ForkStream.ofFork system.window fork .none
  else
    let access ← extents
    ForkStream.ofFork system.window fork access.overflowSource

/-- Open the overflow tree. -/
def openExtents (system : FileSystem) : ExceptT Error m (Tree ExtentKey ExtentRecord) := do
  let fork := Fork.ofData system.header.extentsFile .data extentsFileId system.blockSize
  let stream ← ForkStream.ofFork system.window fork .none
  Tree.ofStream overflowSchema.name (fun _ => pure overflowSchema) stream extentsFileId

/-- Open the catalog. -/
def openCatalog (system : FileSystem)
    (extents : ExceptT Error m (Access m ExtentKey ExtentRecord)) :
    ExceptT Error m (Tree CatalogKey CatalogRecord) := do
  let stream ← system.treeStream extents system.header.catalogFile catalogFileId
  Tree.ofStream Catalog.treeName (Catalog.configure system.isHfsx) stream catalogFileId

/-- Open the attributes tree, if there is one. -/
def openAttributes (system : FileSystem)
    (extents : ExceptT Error m (Access m ExtentKey ExtentRecord)) :
    ExceptT Error m (Option (Tree AttributeKey AttributeValue)) := do
  if system.header.attributesFile.totalBlocks = 0 then
    log .noAttributes
    return none
  let stream ← system.treeStream extents system.header.attributesFile attributesFileId
  some <$> Tree.ofStream attributeSchema.name (fun _ => pure attributeSchema) stream
    attributesFileId

/-- Open the tree of hot files, if the root folder has a file of its name. -/
def openHotFiles (system : FileSystem)
    (extents : ExceptT Error m (Access m ExtentKey ExtentRecord))
    (catalog : ExceptT Error m (Access m CatalogKey CatalogRecord)) :
    ExceptT Error m (Option (Tree HotFileKey HotFileRecord × HotFilesInfo)) := do
  let access ← catalog
  match ← access.find ⟨rootFolderId, hotFilesName⟩ with
  | some (_, .file file) =>
    let stream ← system.treeStream extents file.dataFork file.fileId
    let tree ← Tree.ofStream hotFileSchema.name (fun _ => pure hotFileSchema) stream file.fileId
    let info : HotFilesInfo ← Stored.read tree.userData
    if info.magic ≠ hotFilesMagic then throw (.invalid (.hotFilesMagic info.magic))
    return some (tree, info)
  | _ => return none

/-- Open trees each time they are asked for and read every node anew. -/
def direct (system : FileSystem) : Inspection m :=
  let extents := Tree.direct <$> system.openExtents
  let catalog := Tree.direct <$> system.openCatalog extents
  { system := system
    extents := extents
    catalog := catalog
    attributes := (Option.map Tree.direct) <$> system.openAttributes extents
    hotFiles := (Option.map fun (tree, info) => (tree.direct, info)) <$>
      system.openHotFiles extents catalog }

end FileSystem

/-- The trees opened so far and their cached nodes. -/
structure Shelf where
  extents : Option (Tree ExtentKey ExtentRecord)
  catalog : Option (Tree CatalogKey CatalogRecord)
  attributes : Option (Option (Tree AttributeKey AttributeValue))
  hotFiles : Option (Option (Tree HotFileKey HotFileRecord × HotFilesInfo))
  extentsCache : RecencyCache Node
  catalogCache : RecencyCache Node
  attributesCache : RecencyCache Node
  hotFilesCache : RecencyCache Node

namespace Shelf

/-- Nothing opened yet; each tree may keep `capacity` nodes. -/
def empty (capacity : Nat) : Shelf :=
  ⟨none, none, none, none, .empty capacity, .empty capacity, .empty capacity, .empty capacity⟩

variable {m : Type → Type} [Monad m]

/-- Work on a part of a state. -/
def zoom {σ τ α : Type} (part : σ → τ) (withPart : σ → τ → σ) (action : StateT τ m α) :
    StateT σ m α :=
  fun whole => do
    let (result, changed) ← action (part whole)
    return (result, withPart whole changed)

/-- Get the nodes of a tree through one of the caches. -/
def through {Key Value : Type} [Logging m] (cache : Shelf → RecencyCache Node)
    (withCache : Shelf → RecencyCache Node → Shelf) (tree : Tree Key Value) :
    Access (StateT Shelf m) Key Value where
  tree := tree
  node verified number :=
    ExceptT.mk (zoom cache withCache ((tree.cached (m := m)).node verified number).run)

/-- Take what was opened before, or open it now and remember it. -/
def once {α : Type} (place : Shelf → Option α) (withPlace : Shelf → α → Shelf)
    (opened : ExceptT Error (StateT Shelf m) α) : ExceptT Error (StateT Shelf m) α := do
  match place (← getThe Shelf) with
  | some value => return value
  | none =>
    let value ← opened
    modifyThe Shelf fun shelf => withPlace shelf value
    return value

end Shelf

/-- Open each tree once, when it is first needed, and cache its nodes. -/
def FileSystem.remembering {m : Type → Type} [Monad m] [Logging m] (system : FileSystem) :
    Inspection (StateT Shelf m) :=
  let extents := Shelf.through (·.extentsCache) (fun shelf cache => { shelf with extentsCache := cache })
    <$> Shelf.once (·.extents) (fun shelf tree => { shelf with extents := some tree })
      system.openExtents
  let catalog := Shelf.through (·.catalogCache) (fun shelf cache => { shelf with catalogCache := cache })
    <$> Shelf.once (·.catalog) (fun shelf tree => { shelf with catalog := some tree })
      (system.openCatalog extents)
  let attributes := Option.map (Shelf.through (·.attributesCache)
      (fun shelf cache => { shelf with attributesCache := cache }))
    <$> Shelf.once (·.attributes) (fun shelf tree => { shelf with attributes := some tree })
      (system.openAttributes extents)
  let hotFiles := Option.map (fun (tree, info) => (Shelf.through (·.hotFilesCache)
      (fun shelf cache => { shelf with hotFilesCache := cache }) tree, info))
    <$> Shelf.once (·.hotFiles) (fun shelf opened => { shelf with hotFiles := some opened })
      (system.openHotFiles extents catalog)
  { system := system
    extents := extents
    catalog := catalog
    attributes := attributes
    hotFiles := hotFiles }

end HfsPlus
