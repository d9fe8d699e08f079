import HfsPlus.FileSystem.Trees
import HfsPlus.Tree.Chain

/-!
# Paths, numbers, folders and attributes

A path is followed from the root folder, one name at a time. A number leads to its
thread record and from there to the folder or file itself; following threads
upwards gives the path back. The contents of a folder and the attributes of a file
are the records that follow the least key of their group, until the group ends.

A path component stands for a name with slash and colon exchanged. Empty
components do not count, so that slashes may be doubled, and may lead and trail.
-/

namespace HfsPlus

namespace Path

/-- The pieces of a path between slashes, the empty ones among them. -/
def pieces : List Char → List (List Char)
  | [] => [[]]
  | char :: rest =>
    match pieces rest with
    | [] => [[char]]
    | piece :: later => if char = '/' then [] :: piece :: later else (char :: piece) :: later

/-- The components of a path. -/
def components (path : String) : List String :=
  ((pieces path.toList).filter fun piece => !piece.isEmpty).map String.ofList

end Path

namespace Access

variable {m : Type → Type} [Monad m]

/-- The record of a name in a folder. -/
def findRecord (catalog : Access m CatalogKey CatalogRecord) (parent : UInt32) (name : Name) :
    ExceptT Error m (Option CatalogEntry) := do
  let found ← catalog.find ⟨parent, name⟩
  return found.map fun (key, record) => ⟨key, record⟩

/-- The thread record of a number, if what is kept under its key is one. -/
def findThread (catalog : Access m CatalogKey CatalogRecord) (cnid : UInt32) :
    ExceptT Error m (Option CatalogThread) := do
  let found ← catalog.find (.thread cnid)
  return found.bind fun (_, record) => record.thread?

/-- The folder or file of a number, found by way of its thread record. -/
def lookupCnid (catalog : Access m CatalogKey CatalogRecord) (cnid : UInt32) :
    ExceptT Error m (Option CatalogEntry) := do
  match ← catalog.findThread cnid with
  | some thread => catalog.findRecord thread.parentId thread.name
  | none => return none

/-- Follow components of a path from an entry on. Only a folder leads on. -/
def follow [Logging m] (catalog : Access m CatalogKey CatalogRecord) (path : String) :
    List String → CatalogEntry → ExceptT Error m (Option CatalogEntry)
  | [], entry => return some entry
  | component :: later, entry =>
    match entry.record with
    | .folder folder => do
      match ← catalog.findRecord folder.folderId (.ofPosix component) with
      | some next => follow catalog path later next
      | none => return none
    | _ => do
      log (.pathBeyondFile path component)
      return none

/-- The entry that a path leads to from the root folder. -/
def resolvePath [Logging m] (catalog : Access m CatalogKey CatalogRecord) (path : String) :
    ExceptT Error m (Option CatalogEntry) := do
  match ← catalog.lookupCnid rootFolderId with
  | some root => catalog.follow path (Path.components path) root
  | none => return none

/-- Follow threads from a number up to the root folder, `left` of them at most, and
put the names before those already met. There is no path if a thread is missing or
leads above the root. -/
def climb (catalog : Access m CatalogKey CatalogRecord) (start : UInt32) :
    (left : Nat) → (current : UInt32) → (names : List String) →
      ExceptT Error m (Option (List String))
  | left, current, names =>
    if current = rootFolderId then return some names
    else
      match left with
      | 0 => throw (.invalid (.threadCycle start))
      | left + 1 => do
        match ← catalog.findThread current with
        | none => return none
        | some thread =>
          if thread.parentId = rootParentId then return none
          else climb catalog start left thread.parentId (thread.name.toPosix :: names)

/-- How many threads are followed before they count as a circle. -/
def climbBound (catalog : Access m CatalogKey CatalogRecord) : Nat :=
  catalog.tree.header.leafRecords.toNat + 2

/-- The path of a number. -/
def pathOf (catalog : Access m CatalogKey CatalogRecord) (cnid : UInt32) :
    ExceptT Error m (Option String) := do
  let names ← catalog.climb cnid catalog.climbBound cnid []
  return names.map fun names => "/" ++ "/".intercalate names

/-- What listing a folder has found so far, last first, when the next record comes.
Threads are passed over; a record of another folder ends the listing, and so do an
error and the `limit`-th item. -/
def listVisit (folder : UInt32) (limit : Option Nat)
    (found : List (Except Error CatalogEntry)) :
    Except Error (CatalogKey × CatalogRecord) → List (Except Error CatalogEntry) × Bool
  | .error cause => (.error cause :: found, false)
  | .ok (key, record) =>
    if key.parentId ≠ folder then (found, false)
    else if record.isThread then (found, true)
    else (.ok ⟨key, record⟩ :: found, limit.all fun limit => found.length + 1 < limit)

/-- The contents of a folder in the order of their names, `limit` items at most. A
record that cannot be read is the last item. -/
def listFolder (catalog : Access m CatalogKey CatalogRecord) (folder : UInt32)
    (limit : Option Nat) : ExceptT Error m (List (Except Error CatalogEntry)) := do
  let start ← catalog.search (.thread folder)
  let cursor ← catalog.recordsFrom start.position
  let found ← ExceptT.lift (catalog.fold (listVisit folder limit) [] cursor)
  return found.reverse

/-- What collecting attributes has found so far, last first, when the next record
comes. A record of another file ends the collection, and so does an error, which
takes the place of what was found. -/
def attributeVisit (file : UInt32)
    (found : Except Error (List (AttributeKey × AttributeValue))) :
    Except Error (AttributeKey × AttributeValue) →
      Except Error (List (AttributeKey × AttributeValue)) × Bool
  | .error cause => (.error cause, false)
  | .ok (key, value) =>
    if key.fileId ≠ file then (found, false)
    else (found.map fun found => (key, value) :: found, true)

/-- The attributes of a file, in the order of their names. -/
def attributesOf (attributes : Access m AttributeKey AttributeValue) (file : UInt32) :
    ExceptT Error m (List (AttributeKey × AttributeValue)) := do
  let start ← attributes.search (.firstOf file)
  let cursor ← attributes.recordsFrom start.position
  let found ← ExceptT.mk (attributes.fold (attributeVisit file) (.ok []) cursor)
  return found.reverse

end Access

namespace Inspection

variable {m : Type → Type} [Monad m] [Logging m]

/-- The record of a name in a folder. -/
def findRecord (inspection : Inspection m) (parent : UInt32) (name : Name) :
    ExceptT Error m (Option CatalogEntry) := do
  (← inspection.catalog).findRecord parent name

/-- The folder or file of a number. -/
def lookupCnid (inspection : Inspection m) (cnid : UInt32) :
    ExceptT Error m (Option CatalogEntry) := do
  (← inspection.catalog).lookupCnid cnid

/-- The folder or file at a path. -/
def resolvePath (inspection : Inspection m) (path : String) :
    ExceptT Error m (Option CatalogEntry) := do
  (← inspection.catalog).resolvePath path

/-- The path of a number. -/
def pathOf (inspection : Inspection m) (cnid : UInt32) : ExceptT Error m (Option String) := do
  (← inspection.catalog).pathOf cnid

/-- The contents of a folder, `limit` items at most. -/
def listFolder (inspection : Inspection m) (folder : UInt32) (limit : Option Nat) :
    ExceptT Error m (List (Except Error CatalogEntry)) := do
  (← inspection.catalog).listFolder folder limit

/-- The attributes of a file; a volume without the tree has none. -/
def attributesOf (inspection : Inspection m) (file : UInt32) :
    ExceptT Error m (List (AttributeKey × AttributeValue)) := do
  match ← inspection.attributes with
  | some attributes => attributes.attributesOf file
  | none => return []

end Inspection

end HfsPlus
