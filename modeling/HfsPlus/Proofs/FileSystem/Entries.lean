import HfsPlus.Proofs.FileSystem.Paths
import HfsPlus.Proofs.Tree.Soundness

/-!
# What a path leads to

A path is followed name by name, and what is found for a name is stored under a key that
counts as equal. Under the empty name in a folder the catalog keeps the folder's thread. The
empty components of a path are left out, but there are other names that count as the empty
one: where letter case is folded, units that do not show are passed over. Such a name leads
from a folder to its thread. By every other name a folder or file is reached, if the catalog
keeps threads under such names and nothing else.
-/

namespace HfsPlus

open Std (TransCmp)

namespace Catalog

/-- A name counts as the empty one. -/
def Blank (caseSensitive : Bool) (name : Name) : Prop :=
  compareNames caseSensitive name .empty = .eq

instance (caseSensitive : Bool) (name : Name) : Decidable (Blank caseSensitive name) :=
  inferInstanceAs (Decidable (_ = _))

/-- Keys that count as equal have names that are both blank, or both not. -/
theorem blank_congr {caseSensitive : Bool} {left right : CatalogKey}
    (equal : compareKeys caseSensitive left right = .eq) :
    Blank caseSensitive left.name ↔ Blank caseSensitive right.name := by
  rw [compareKeys, Ordering.then_eq_eq] at equal
  unfold Blank
  rw [TransCmp.congr_left equal.2]

section Finding

variable {m : Type → Type} [Monad m] {access : Access m CatalogKey CatalogRecord}
variable {caseSensitive : Bool} (schema : access.tree.schema = schema caseSensitive)
include schema

/-- Names that count as equal find the same record. -/
theorem findRecord_congr {left right : Name} (equal : compareNames caseSensitive left right = .eq)
    (parent : UInt32) : access.findRecord parent left = access.findRecord parent right := by
  have ordered : TransCmp access.tree.schema.compare := by
    rw [schema]
    exact inferInstanceAs (TransCmp (compareKeys caseSensitive))
  have same : access.tree.schema.compare ⟨parent, left⟩ ⟨parent, right⟩ = .eq := by
    rw [schema]
    exact Ordering.then_eq_eq.mpr ⟨Std.ReflCmp.compare_self, equal⟩
  rw [Access.findRecord, Access.findRecord, Tree.find_congr same rfl]

end Finding

section Definitions

variable (caseSensitive : Bool) (tree : Tree CatalogKey CatalogRecord)

/-- A catalog keeps threads under blank names, and nothing else. -/
def Filed : Prop :=
  ∀ key record, tree.Stores (key, record) → (record.isThread = true ↔ Blank caseSensitive key.name)

/-- The name that the last look-up on the way along some components is made by: that of the
last component or, if there is none, the name that its thread gives the root folder. -/
inductive Sought : List String → Name → Prop
  | root {key : CatalogKey} {record : CatalogRecord} {thread : CatalogThread}
    (stored : tree.Stores (key, record))
    (equal : tree.schema.compare key (.thread rootFolderId) = .eq)
    (named : record.thread? = some thread) : Sought [] thread.name
  | last {components : List String} {component : String}
    (last : components.getLast? = some component) : Sought components (.ofPosix component)

end Definitions

section Queries

variable {tree : Tree CatalogKey CatalogRecord}

/-- A record that is found by its name is stored under an equal key. -/
theorem stores_of_findRecord {parent : UInt32} {name : Name} {entry : CatalogEntry}
    (found : ((tree.direct (m := Id)).findRecord parent name).run = .ok (some entry)) :
    tree.Stores (entry.key, entry.record) ∧
      tree.schema.compare entry.key ⟨parent, name⟩ = .eq := by
  obtain ⟨outcome, searched, found⟩ := run_bind_eq_ok.mp found
  rcases outcome with _ | record
  · cases found
  · obtain ⟨⟩ := found
    exact Tree.stores_of_find searched

/-- The two records that looking up a number comes by. -/
theorem found_of_lookupCnid {cnid : UInt32} {entry : CatalogEntry}
    (looked : ((tree.direct (m := Id)).lookupCnid cnid).run = .ok (some entry)) :
    ∃ key record thread,
      ((tree.direct (m := Id)).find (.thread cnid)).run = .ok (some (key, record)) ∧
      record.thread? = some thread ∧
      ((tree.direct (m := Id)).find ⟨thread.parentId, thread.name⟩).run =
        .ok (some (entry.key, entry.record)) := by
  obtain ⟨outcome, searched, looked⟩ := run_bind_eq_ok.mp looked
  rcases outcome with _ | thread
  · cases looked
  obtain ⟨outcome, found, named⟩ := run_bind_eq_ok.mp searched
  rcases outcome with _ | ⟨key, record⟩
  · cases named
  obtain ⟨outcome, ended, same⟩ := run_bind_eq_ok.mp looked
  rcases outcome with _ | stored
  · cases same
  obtain ⟨⟩ := same
  exact ⟨key, record, thread, found, Except.ok.inj named, ended⟩

/-- A number is looked up by the name that its thread gives. -/
theorem stores_of_lookupCnid {cnid : UInt32} {entry : CatalogEntry}
    (looked : ((tree.direct (m := Id)).lookupCnid cnid).run = .ok (some entry)) :
    ∃ key record thread, tree.Stores (key, record) ∧
      tree.schema.compare key (.thread cnid) = .eq ∧ record.thread? = some thread ∧
      tree.Stores (entry.key, entry.record) ∧
      tree.schema.compare entry.key ⟨thread.parentId, thread.name⟩ = .eq := by
  obtain ⟨key, record, thread, threadFound, named, entryFound⟩ := found_of_lookupCnid looked
  obtain ⟨stored, equal⟩ := Tree.stores_of_find threadFound
  obtain ⟨entryStored, entryEqual⟩ := Tree.stores_of_find entryFound
  exact ⟨key, record, thread, stored, equal, named, entryStored, entryEqual⟩

/-- Following components leads to what is stored under the name of the last one, unless there
are none. Induct over the components. -/
theorem stores_of_follow {path : String} {components : List String} {start entry : CatalogEntry}
    (followed : ((tree.direct (m := Id)).follow path components start).run = .ok (some entry))
    (some_ : components ≠ []) :
    ∃ component parent, components.getLast? = some component ∧
      tree.Stores (entry.key, entry.record) ∧
      tree.schema.compare entry.key ⟨parent, .ofPosix component⟩ = .eq := by
  induction components generalizing start with
  | nil => exact absurd rfl some_
  | cons component later inductionHypothesis =>
    rw [Access.follow] at followed
    split at followed
    · obtain ⟨outcome, found, followed⟩ := run_bind_eq_ok.mp followed
      rcases outcome with _ | next
      · cases followed
      · cases later with
        | nil =>
          obtain ⟨⟩ := followed
          exact ⟨component, _, rfl, stores_of_findRecord found⟩
        | cons second rest =>
          obtain ⟨last, parent, isLast, stored⟩ :=
            inductionHypothesis followed (List.cons_ne_nil _ _)
          exact ⟨last, parent, by rwa [List.getLast?_cons_cons], stored⟩
    · cases followed

/-- A path leads to what is stored under the name that is sought last. -/
theorem stores_of_resolvePath {path : String} {entry : CatalogEntry}
    (resolved : ((tree.direct (m := Id)).resolvePath path).run = .ok (some entry)) :
    ∃ name parent, Sought tree (Path.components path) name ∧
      tree.Stores (entry.key, entry.record) ∧
      tree.schema.compare entry.key ⟨parent, name⟩ = .eq := by
  obtain ⟨outcome, looked, resolved⟩ := run_bind_eq_ok.mp resolved
  rcases outcome with _ | root
  · cases resolved
  cases components : Path.components path with
  | nil =>
    rw [components] at resolved
    obtain ⟨⟩ := resolved
    obtain ⟨key, record, thread, stored, equal, named, entryStored, entryEqual⟩ :=
      stores_of_lookupCnid looked
    exact ⟨thread.name, thread.parentId, .root stored equal named, entryStored, entryEqual⟩
  | cons first later =>
    rw [components] at resolved
    obtain ⟨component, parent, last, stored, equal⟩ :=
      stores_of_follow resolved (List.cons_ne_nil _ _)
    exact ⟨_, parent, .last last, stored, equal⟩

end Queries

end Catalog

namespace FileSystem

variable {system : FileSystem} {tree : Tree CatalogKey CatalogRecord}

/-- A record that is no thread has a number. -/
theorem cnid?_of_not_thread {record : CatalogRecord} (entry : ¬ record.isThread = true) :
    ∃ cnid, record.cnid? = some cnid := by
  cases record with
  | folder stored => exact ⟨_, rfl⟩
  | file stored => exact ⟨_, rfl⟩
  | folderThread thread => exact absurd rfl entry
  | fileThread thread => exact absurd rfl entry

/-- **A path leads to a folder or file**, which has a number, if the catalog keeps threads
under blank names and nothing else, and the name that is sought last is not blank. If that
name is blank, whatever the path leads to is a thread. This holds whatever was asked before
and however many nodes are cached. -/
theorem path_leads_to_entry (opened : system.catalogTree = .ok tree)
    (filed : Catalog.Filed (Catalog.isCaseSensitive system.isHfsx tree.header) tree)
    (path : String) (capacity : Nat) (queries : List Query) (entry : CatalogEntry)
    (resolved :
      let inspection := system.remembering (m := Id)
      let history := ((inspection.answers queries).run (.empty capacity)).2
      ((inspection.resolvePath path).run.run history).1 = .ok (some entry)) :
    ∃ name, Catalog.Sought tree (Path.components path) name ∧
      (entry.record.isThread = true ↔
        Catalog.Blank (Catalog.isCaseSensitive system.isHfsx tree.header) name) ∧
      (¬ Catalog.Blank (Catalog.isCaseSensitive system.isHfsx tree.header) name →
        ∃ cnid, entry.record.cnid? = some cnid) := by
  have faithful := (system.replies_of_faithful (Shelf.faithful_empty system capacity) queries).2
  have direct : ((tree.direct (m := Id)).resolvePath path).run = .ok (some entry) :=
    ((system.faithfully.holds_run (system.remembering_direct.resolvePath path) _ faithful).1.trans
      (direct_asked opened _)).symm.trans resolved
  obtain ⟨name, parent, sought, stored, equal⟩ := Catalog.stores_of_resolvePath direct
  rw [schema_of_catalogTree opened] at equal
  have thread := (filed _ _ stored).trans (Catalog.blank_congr equal)
  exact ⟨name, sought, thread, fun shows => cnid?_of_not_thread (mt thread.mp shows)⟩

section Sample

/-- The sample catalog has a header node and one leaf. -/
theorem sample_leaf_number {number : UInt32} {leaf : Node}
    (stored : sampleCatalog.stored number = .ok leaf) (kind : leaf.kind = .leaf) : number = 1 := by
  have header : (sampleCatalog.stored 0).toOption.all fun node => node.kind != .leaf := by
    decide +kernel
  have few : sampleCatalog.header.totalNodes = 2 := by decide +kernel
  have below := Tree.inside_of_stored stored
  rw [few, UInt32.lt_iff_toNat_lt] at below
  change number.toNat < 2 at below
  have behind : number.toNat ≠ 0 := by
    intro zero
    obtain rfl : number = 0 := UInt32.toNat_inj.mp zero
    rw [stored] at header
    simp [Except.toOption, kind] at header
  exact UInt32.toNat_inj.mp (show number.toNat = 1 by omega)

/-- In the sample catalog threads are kept under empty names, and nothing else is. -/
theorem sample_filed : Catalog.Filed false sampleCatalog := by
  rintro key record ⟨number, leaf, index, stored, kind, inside, read⟩
  obtain rfl := sample_leaf_number stored kind
  have verified := (sampleCatalog.stored_eq_ok.mp stored).2
  have within : index < (sampleCatalog.recordsOf leaf).length := by
    rwa [Tree.length_recordsOf verified kind]
  have whole : sampleRecords = sampleCatalog.recordsOf leaf := by
    rw [← sample_records, Tree.recordsIn_cons, Tree.recordsIn_nil, List.append_nil, Tree.nodeAt,
      stored]
  have member : (key, record) ∈ sampleRecords := by
    rw [whole, Except.ok.inj (read.symm.trans (Tree.leafRecord_of_verified verified kind index within))]
    exact List.getElem_mem within
  have each : ∀ item ∈ sampleRecords, item.2.isThread = true ↔ Catalog.Blank false item.1.name := by
    decide
  exact each _ member

/-- The path of the file leads to a record with a number, since its last name is not blank. -/
theorem path_leads_to_entry_sample :
    sample.catalogTree = .ok sampleCatalog ∧ Catalog.Filed false sampleCatalog ∧
      (((sample.remembering (m := Id)).resolvePath "/a:b/x").run.run (.empty 4)).1 =
        .ok (some ⟨⟨16, .ofText "x"⟩, .file (sampleFile 17)⟩) ∧
      ∃ name, Catalog.Sought sampleCatalog (Path.components "/a:b/x") name ∧
        ((CatalogRecord.file (sampleFile 17)).isThread = true ↔ Catalog.Blank false name) ∧
        (¬ Catalog.Blank false name →
          ∃ cnid, (CatalogRecord.file (sampleFile 17)).cnid? = some cnid) := by
  have resolved :
      (((sample.remembering (m := Id)).resolvePath "/a:b/x").run.run (.empty 4)).1 =
        .ok (some ⟨⟨16, .ofText "x"⟩, .file (sampleFile 17)⟩) := by
    decide +kernel
  exact ⟨sample_opened, sample_filed, resolved,
    path_leads_to_entry sample_opened sample_filed "/a:b/x" 4 [] _ resolved⟩

/-- The component is not empty, but passed over, and the path leads to the thread of the root
folder, which has no number. -/
theorem path_reaches_thread :
    Path.components "/\u200D" = ["\u200D"] ∧
      (((sample.remembering (m := Id)).resolvePath "/\u200D").run.run (.empty 4)).1 =
        .ok (some ⟨.thread 2, .folderThread ⟨1, .ofText "root"⟩⟩) ∧
      (CatalogRecord.folderThread ⟨1, .ofText "root"⟩).cnid? = none := by
  refine ⟨by decide +kernel, by decide +kernel, rfl⟩

end Sample

end FileSystem

end HfsPlus
