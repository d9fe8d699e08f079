import HfsPlus.Proofs.FileSystem.Entries
import HfsPlus.Proofs.FileSystem.Listings

/-!
# Numbers are looked up by way of threads

A number is looked up in two steps: its thread first, and then the record under the name that
the thread gives. The second step knows nothing of the number. Whether it ends at the record of
the number depends on the catalog alone: on whether its threads are true, `TrueThreads`, that is,
give the names of the records whose numbers they are kept under. A thread that was left behind,
or was swapped with another, leads to the record of another number, and one whose name is empty
to a thread.
-/

namespace HfsPlus

open Std (TransCmp)

namespace Catalog

/-- Among some records the threads of a number are true: whatever has the name that one of them
gives is a folder or file of that number. -/
def TrueThreads (tree : Tree CatalogKey CatalogRecord) (held : CatalogKey × CatalogRecord → Prop)
    (cnid : UInt32) : Prop :=
  ∀ key record thread, held (key, record) → tree.schema.compare key (.thread cnid) = .eq →
    record.thread? = some thread →
    ∀ other named, held (other, named) →
      tree.schema.compare other ⟨thread.parentId, thread.name⟩ = .eq → named.cnid? = some cnid

variable {tree : Tree CatalogKey CatalogRecord} {cnid : UInt32} {entry : CatalogEntry}
variable {records : List (CatalogKey × CatalogRecord)}

/-- A record that has a number is no thread. -/
theorem not_thread_of_cnid? {record : CatalogRecord} (numbered : record.cnid? = some cnid) :
    ¬ record.isThread = true := by
  cases record with
  | folder stored => exact Bool.false_ne_true
  | file stored => exact Bool.false_ne_true
  | folderThread thread => cases numbered
  | fileThread thread => cases numbered

section Holding

variable [TransCmp tree.schema.compare] (holds : tree.Holds records)
include holds

/-- What is found in a tree that holds some records is one of them, and the only one with its
key. -/
theorem member_of_find {key : CatalogKey} {record : CatalogKey × CatalogRecord}
    (found : ((tree.direct (m := Id)).find key).run = .ok (some record)) :
    record ∈ records ∧ tree.schema.compare record.1 key = .eq ∧
      ∀ other ∈ records, tree.schema.compare other.1 key = .eq → other = record := by
  rw [holds.find_direct] at found
  have first := Except.ok.inj found
  have member := List.mem_of_find?_eq_some first
  have equal : tree.schema.compare record.1 key = .eq := by simpa using List.find?_some first
  refine ⟨member, equal, fun other otherMember otherEqual => ?_⟩
  exact holds.unique otherMember member
    (TransCmp.eq_trans otherEqual (Std.OrientedCmp.eq_symm equal))

/-- In a well-formed catalog a number has one thread, and one record has the name that it gives.
So the number is looked up at a record of its own exactly if its thread is true. -/
theorem trueThreads_iff
    (looked : ((tree.direct (m := Id)).lookupCnid cnid).run = .ok (some entry)) :
    entry.record.cnid? = some cnid ↔ TrueThreads tree (· ∈ records) cnid := by
  obtain ⟨key, record, thread, threadFound, isThread, entryFound⟩ := found_of_lookupCnid looked
  obtain ⟨member, equal, only⟩ := member_of_find holds threadFound
  obtain ⟨entryMember, entryEqual, onlyEntry⟩ := member_of_find holds entryFound
  constructor
  · intro numbered another second other secondMember secondEqual named name third thirdMember equals
    obtain ⟨⟩ := only _ secondMember secondEqual
    obtain rfl := Option.some.inj (isThread.symm.trans named)
    obtain ⟨⟩ := onlyEntry _ thirdMember equals
    exact numbered
  · intro threads
    exact threads key record thread member equal isThread _ _ entryMember entryEqual

end Holding

end Catalog

namespace FileSystem

variable {system : FileSystem} {tree : Tree CatalogKey CatalogRecord}

/-- **A number leads where its thread does.** Whatever was asked before, and however many nodes
are cached, the entry that a number is looked up at is stored under the name that a stored
thread of the number gives. Where the threads of the number are true, among whatever records
the catalog stores, the entry is a folder or file, and the number is its own. In a well-formed
catalog the number is that of the entry exactly if its threads are true. -/
theorem lookup_follows_thread (opened : system.catalogTree = .ok tree) (cnid : UInt32)
    (capacity : Nat) (queries : List Query) (entry : CatalogEntry)
    (looked :
      let inspection := system.remembering (m := Id)
      let history := ((inspection.answers queries).run (.empty capacity)).2
      ((inspection.lookupCnid cnid).run.run history).1 = .ok (some entry)) :
    (∃ key record thread, tree.Stores (key, record) ∧
        tree.schema.compare key (.thread cnid) = .eq ∧ record.thread? = some thread ∧
        tree.Stores (entry.key, entry.record) ∧
        tree.schema.compare entry.key ⟨thread.parentId, thread.name⟩ = .eq) ∧
      (Catalog.TrueThreads tree tree.Stores cnid →
        entry.record.cnid? = some cnid ∧ ¬ entry.record.isThread = true) ∧
      ∀ records, tree.Holds records →
        (entry.record.cnid? = some cnid ↔ Catalog.TrueThreads tree (· ∈ records) cnid) := by
  have direct : ((tree.direct (m := Id)).lookupCnid cnid).run = .ok (some entry) :=
    (asked_of_opened opened (system.remembering_direct.lookupCnid cnid) capacity queries).symm.trans
      looked
  obtain ⟨key, record, thread, stored, equal, named, entryStored, entryEqual⟩ :=
    Catalog.stores_of_lookupCnid direct
  refine ⟨⟨key, record, thread, stored, equal, named, entryStored, entryEqual⟩, ?_, ?_⟩
  · intro threads
    have numbered := threads key record thread stored equal named _ _ entryStored entryEqual
    exact ⟨numbered, Catalog.not_thread_of_cnid? numbered⟩
  · intro records holds
    have ordered : TransCmp tree.schema.compare := by
      rw [schema_of_catalogTree opened]
      exact inferInstanceAs (TransCmp (Catalog.compareKeys _))
    exact Catalog.trueThreads_iff holds direct

section Sample

/-! A volume of which one thread is true besides that of the root folder. -/

/-- A file with its thread, and five more threads: two of them lead round in a circle, one leads
into it, one names the file, and one names a thread. -/
def misledRecords : List (CatalogKey × CatalogRecord) :=
  [(⟨1, .ofText "root"⟩, .folder (sampleFolder 2)),
    (.thread 2, .folderThread ⟨1, .ofText "root"⟩),
    (⟨2, .ofText "a"⟩, .file (sampleFile 20)),
    (.thread 16, .folderThread ⟨17, .ofText "x"⟩),
    (.thread 17, .folderThread ⟨16, .ofText "y"⟩),
    (.thread 20, .fileThread ⟨2, .ofText "a"⟩),
    (.thread 21, .fileThread ⟨2, .ofText "a"⟩),
    (.thread 22, .fileThread ⟨20, .empty⟩),
    (.thread 23, .fileThread ⟨16, .ofText "z"⟩)]

/-- An overflow tree without records, and the catalog behind it. -/
def misledImage : Bytes :=
  sampleImage.take 1024 ++
    Tree.nodeBytes 1024 0 1 0 [Stored.encode (sampleHeader 1024 9)] ++
    Tree.nodeBytes 1024 0 255 1 (misledRecords.map fun (key, record) => recordBytes key record)

/-- The volume. -/
def misled : FileSystem :=
  { sample with
    window := ⟨some 3072, fun offset wanted => .ok ((misledImage.drop offset).take wanted)⟩ }

/-- Its catalog opens and is well-formed: the threads are in their places, whatever they say. -/
theorem misled_catalog :
    ∃ tree, misled.catalogTree = .ok tree ∧ tree.header = sampleHeader 1024 9 ∧
      tree.Holds misledRecords :=
  holds_of_catalogTree (by decide) (by decide +kernel) (by decide +kernel)

/-- A thread that was left behind leads to the file of another number. -/
theorem misled_stale : (((misled.remembering (m := Id)).lookupCnid 21).run.run (.empty 4)).1 =
    .ok (some ⟨⟨2, .ofText "a"⟩, .file (sampleFile 20)⟩) := by decide +kernel

/-- The file is looked up by its own number, and by another one whose thread was left behind. -/
theorem lookup_follows_thread_misled :
    ∃ tree, misled.catalogTree = .ok tree ∧
      (((misled.remembering (m := Id)).lookupCnid 20).run.run (.empty 4)).1 =
        .ok (some ⟨⟨2, .ofText "a"⟩, .file (sampleFile 20)⟩) ∧
      Catalog.TrueThreads tree (· ∈ misledRecords) 20 ∧
      ¬ Catalog.TrueThreads tree (· ∈ misledRecords) 21 := by
  obtain ⟨tree, opened, -, holds⟩ := misled_catalog
  have right : (((misled.remembering (m := Id)).lookupCnid 20).run.run (.empty 4)).1 =
      .ok (some ⟨⟨2, .ofText "a"⟩, .file (sampleFile 20)⟩) := by decide +kernel
  obtain ⟨-, -, own⟩ := lookup_follows_thread opened 20 4 [] _ right
  obtain ⟨-, -, another⟩ := lookup_follows_thread opened 21 4 [] _ misled_stale
  exact ⟨tree, opened, right, (own _ holds).mp rfl,
    fun threads => absurd ((another _ holds).mpr threads) (by decide)⟩

/-- One number is looked up at the file of another one, and one at a thread. -/
theorem lookup_reaches_others :
    (((misled.remembering (m := Id)).lookupCnid 21).run.run (.empty 4)).1 =
        .ok (some ⟨⟨2, .ofText "a"⟩, .file (sampleFile 20)⟩) ∧
      (CatalogRecord.file (sampleFile 20)).cnid? = some 20 ∧
      (((misled.remembering (m := Id)).lookupCnid 22).run.run (.empty 4)).1 =
        .ok (some ⟨.thread 20, .fileThread ⟨2, .ofText "a"⟩⟩) ∧
      (CatalogRecord.fileThread ⟨2, .ofText "a"⟩).cnid? = none := by
  exact ⟨misled_stale, rfl, by decide +kernel, rfl⟩

end Sample

end FileSystem

end HfsPlus
