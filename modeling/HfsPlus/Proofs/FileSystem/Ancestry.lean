import HfsPlus.Proofs.FileSystem.History
import HfsPlus.Proofs.Name.Order
import HfsPlus.Proofs.Name.Posix
import HfsPlus.Proofs.Tree.Lookup
import Mathlib.Data.Nat.Find

/-!
# Numbers, threads and paths

The threads of a catalog lead from the number of a folder or file up to the root folder,
and the records under the names of the threads lead down again. Where both directions
are consistent, `Catalog.Ancestry`, climbing spells a path, and following that path ends
at the record of the number that the climb started from.

A climb stops at the root folder, when it is met first. Until then no number is met
twice, because each has one thread. There are therefore no more steps than records, and
the bound on climbs is never reached.
-/

namespace HfsPlus

open Std (TransCmp)

namespace Catalog

section Definitions

variable (tree : Tree CatalogKey CatalogRecord) (leaves : List Node)

/-- A number has a thread: what is kept under the key of its thread names a parent and a
name. -/
def Threaded (cnid : UInt32) (thread : CatalogThread) : Prop :=
  ∃ record, tree.Kept leaves (.thread cnid) record ∧ record.thread? = some thread

/-- The threads of a catalog lead from a number to the root folder in so many steps, and
the records under the names of the threads lead back. -/
structure Ancestry (count : Nat) (number : Nat → UInt32) (name : Nat → Name) : Prop where
  ends : number count = rootFolderId
  below : ∀ place ≤ count, number place ≠ rootParentId
  threaded : ∀ place < count, Threaded tree leaves (number place) ⟨number (place + 1), name place⟩
  /-- A name leads to the folder or file of the number; only the first may be a file. -/
  entered : ∀ place < count, ∃ record,
    tree.Kept leaves ⟨number (place + 1), name place⟩ record ∧
      record.cnid? = some (number place) ∧ (0 < place → ∃ folder, record = .folder folder)
  /-- The thread of the root folder leads to the root folder. -/
  rooted : ∃ thread folder, Threaded tree leaves rootFolderId thread ∧
    tree.Kept leaves ⟨thread.parentId, thread.name⟩ (.folder folder) ∧
    folder.folderId = rootFolderId
  spellable : ∀ place < count, (name place).Spellable

end Definitions

/-- The components of the path that leads down to the start from a place on the way. -/
def descent (name : Nat → Name) : Nat → List String
  | 0 => []
  | place + 1 => (name place).toPosix :: descent name place

/-- Spellable names spell proper components. -/
theorem descent_proper {name : Nat → Name} {count : Nat}
    (spellable : ∀ place < count, (name place).Spellable) :
    ∀ component ∈ descent name count, '/' ∉ component.toList ∧ component.toList ≠ [] := by
  induction count with
  | zero => exact fun component member => (List.not_mem_nil member).elim
  | succ count inductionHypothesis =>
    intro component member
    rcases List.mem_cons.mp member with rfl | later
    · exact ⟨Name.slash_not_mem_toPosix _, (spellable count (Nat.lt_succ_self _)).toPosix_ne_nil⟩
    · exact inductionHypothesis (fun place before => spellable place (Nat.lt_succ_of_lt before))
        component later

section Queries

variable {tree : Tree CatalogKey CatalogRecord} {leaves : List Node}
variable [TransCmp tree.schema.compare] (wellFormed : tree.WellFormed leaves)
include wellFormed

/-- A record under a name is found. -/
theorem findRecord_kept {parent : UInt32} {name : Name} {record : CatalogRecord}
    (kept : tree.Kept leaves ⟨parent, name⟩ record) :
    ∃ stored, ((tree.direct (m := Id)).findRecord parent name).run =
      .ok (some ⟨stored, record⟩) := by
  obtain ⟨stored, found⟩ := wellFormed.find_kept kept
  refine ⟨stored, ?_⟩
  rw [Access.findRecord, run_bind_direct, found]
  rfl

/-- The thread of a number is found. -/
theorem findThread_threaded {cnid : UInt32} {thread : CatalogThread}
    (threaded : Threaded tree leaves cnid thread) :
    ((tree.direct (m := Id)).findThread cnid).run = .ok (some thread) := by
  obtain ⟨record, kept, named⟩ := threaded
  obtain ⟨stored, found⟩ := wellFormed.find_kept kept
  rw [Access.findThread, run_bind_direct, found]
  exact congrArg Except.ok named

/-- A number has one thread. -/
theorem threaded_unique {cnid : UInt32} {left right : CatalogThread}
    (leftThreaded : Threaded tree leaves cnid left)
    (rightThreaded : Threaded tree leaves cnid right) : left = right := by
  obtain ⟨record, leftKept, leftNamed⟩ := leftThreaded
  obtain ⟨other, rightKept, rightNamed⟩ := rightThreaded
  obtain rfl := wellFormed.kept_unique leftKept rightKept
  exact Option.some.inj (leftNamed.symm.trans rightNamed)

/-- A number is looked up where its thread says. -/
theorem lookupCnid_threaded {cnid : UInt32} {thread : CatalogThread}
    (threaded : Threaded tree leaves cnid thread) :
    ((tree.direct (m := Id)).lookupCnid cnid).run =
      ((tree.direct (m := Id)).findRecord thread.parentId thread.name).run := by
  rw [Access.lookupCnid, run_bind_direct, findThread_threaded wellFormed threaded]
  rfl

section Ways

variable {count : Nat} {number : Nat → UInt32} {name : Nat → Name}
variable (ancestry : Ancestry tree leaves count number name)
include ancestry

/-- Climbing from any place on the way before the root folder is met spells the path down
from there. Induct over the steps that are left. -/
theorem climb_ancestry {top : Nat} (met : number top = rootFolderId) (within : top ≤ count)
    (first : ∀ place < top, number place ≠ rootFolderId) (start : UInt32) (threads place : Nat)
    (before : place ≤ top) (enough : top ≤ place + threads) :
    ((tree.direct (m := Id)).climb start threads (number place) (descent name place)).run =
      .ok (some (descent name top)) := by
  induction threads generalizing place with
  | zero =>
    obtain rfl : place = top := Nat.le_antisymm before enough
    rw [Access.climb, if_pos met]
    rfl
  | succ threads inductionHypothesis =>
    rcases Nat.lt_or_eq_of_le before with further | rfl
    · have thread := ancestry.threaded place (by omega)
      have parent : number (place + 1) ≠ rootParentId := ancestry.below _ (by omega)
      rw [Access.climb, if_neg (first place further), run_bind_direct,
        findThread_threaded wellFormed thread]
      dsimp only [Except.bind]
      rw [if_neg parent]
      exact inductionHypothesis (place + 1) further (by omega)
    · rw [Access.climb, if_pos met]
      rfl

/-- Following the path down from a folder on the way ends at the record of the first
number. Induct over the steps down. -/
theorem follow_ancestry (path : String) {place : Nat} (within : place < count)
    {entry : CatalogEntry} {folder : CatalogFolder} (isFolder : entry.record = .folder folder)
    (same : folder.folderId = number (place + 1)) :
    ((tree.direct (m := Id)).follow path (descent name (place + 1)) entry).run =
      ((tree.direct (m := Id)).findRecord (number 1) (name 0)).run := by
  induction place generalizing entry folder with
  | zero =>
    obtain ⟨record, kept, _⟩ := ancestry.entered 0 within
    obtain ⟨stored, found⟩ := findRecord_kept wellFormed kept
    rw [descent, Access.follow, isFolder]
    dsimp only
    rw [(ancestry.spellable 0 within).ofPosix_toPosix, same, run_bind_direct, found]
    rfl
  | succ place inductionHypothesis =>
    obtain ⟨record, kept, itsNumber, folders⟩ := ancestry.entered (place + 1) within
    obtain ⟨next, rfl⟩ := folders (Nat.succ_pos place)
    obtain ⟨stored, found⟩ := findRecord_kept wellFormed kept
    rw [descent, Access.follow, isFolder]
    dsimp only
    rw [(ancestry.spellable _ within).ofPosix_toPosix, same, run_bind_direct, found]
    dsimp only [Except.bind]
    refine inductionHypothesis (Nat.lt_of_succ_lt within) ?_ (Option.some.inj itsNumber)
    rfl

/-- From equal numbers the way leads on through equal numbers. -/
theorem number_add_eq {left right : Nat} (same : number left = number right) (steps : Nat)
    (leftWithin : left + steps ≤ count) (rightWithin : right + steps ≤ count) :
    number (left + steps) = number (right + steps) := by
  induction steps with
  | zero => exact same
  | succ steps inductionHypothesis =>
    have here := inductionHypothesis (by omega) (by omega)
    have leftThread := ancestry.threaded (left + steps) (by omega)
    have rightThread := ancestry.threaded (right + steps) (by omega)
    rw [here] at leftThread
    exact congrArg CatalogThread.parentId (threaded_unique wellFormed leftThread rightThread)

/-- Before the root folder is met, no number is met twice: the way between the two would
be left out by going on from the first as from the second, and the root folder met
sooner. -/
theorem number_ne_of_lt {top : Nat} (met : number top = rootFolderId) (within : top ≤ count)
    (first : ∀ place < top, number place ≠ rootFolderId) {left right : Nat} (less : left < right)
    (before : right < top) : number left ≠ number right := by
  intro same
  have sooner := number_add_eq wellFormed ancestry same (top - right) (by omega) (by omega)
  rw [show right + (top - right) = top by omega, met] at sooner
  exact first _ (by omega) sooner

/-- The root folder is met after no more steps than there are records. -/
theorem steps_le_records {caseSensitive : Bool} (schema : tree.schema = schema caseSensitive)
    {top : Nat} (met : number top = rootFolderId) (within : top ≤ count)
    (first : ∀ place < top, number place ≠ rootFolderId) :
    top ≤ (tree.recordsIn leaves).length := by
  have distinct : ((List.range top).map number).Nodup := by
    rw [List.Nodup, List.pairwise_map, List.pairwise_iff_getElem]
    intro left right leftInside rightInside less
    rw [List.getElem_range, List.getElem_range]
    exact number_ne_of_lt wellFormed ancestry met within first less (by simpa using rightInside)
  have parents : (List.range top).map number ⊆
      (tree.recordsIn leaves).map fun record => record.1.parentId := by
    intro cnid member
    obtain ⟨place, before, rfl⟩ := List.mem_map.mp member
    obtain ⟨record, ⟨stored, kept, equal⟩, _⟩ :=
      ancestry.threaded place (by have := List.mem_range.mp before; omega)
    rw [schema] at equal
    exact List.mem_map.mpr ⟨(stored, record), kept, parentId_of_compareKeys equal⟩
  simpa using (List.Nodup.subperm distinct parents).length_le

/-- The path of the first number is found, and leads to the entry that the number is
looked up at. -/
theorem round_trip {caseSensitive : Bool} (schema : tree.schema = schema caseSensitive)
    (counted : tree.header.leafRecords.toNat = (tree.recordsIn leaves).length) :
    ∃ path entry, ((tree.direct (m := Id)).pathOf (number 0)).run = .ok (some path) ∧
      ((tree.direct (m := Id)).resolvePath path).run = .ok (some entry) ∧
      ((tree.direct (m := Id)).lookupCnid (number 0)).run = .ok (some entry) ∧
      entry.record.cnid? = some (number 0) ∧ (number 0 = rootFolderId → path = "/") := by
  have arrives : ∃ place, number place = rootFolderId := ⟨count, ancestry.ends⟩
  obtain ⟨top, met, within, first⟩ : ∃ top, number top = rootFolderId ∧ top ≤ count ∧
      ∀ place < top, number place ≠ rootFolderId :=
    ⟨Nat.find arrives, Nat.find_spec arrives, Nat.find_min' arrives ancestry.ends,
      fun place before => Nat.find_min arrives before⟩
  have steps := steps_le_records wellFormed ancestry schema met within first
  have climbed := climb_ancestry wellFormed ancestry met within first (number 0)
    (tree.direct (m := Id)).climbBound 0 (Nat.zero_le top)
    (by change top ≤ 0 + (tree.header.leafRecords.toNat + 2); omega)
  have proper := descent_proper fun place before =>
    ancestry.spellable place (Nat.lt_of_lt_of_le before within)
  obtain ⟨thread, folder, rootThread, rootKept, rootNumber⟩ := ancestry.rooted
  obtain ⟨rootKey, rootFound⟩ := findRecord_kept wellFormed rootKept
  have rootLooked := (lookupCnid_threaded wellFormed rootThread).trans rootFound
  have resolved (path : String) (split : Path.components path = descent name top) :
      ((tree.direct (m := Id)).resolvePath path).run =
        ((tree.direct (m := Id)).follow path (descent name top) ⟨rootKey, .folder folder⟩).run := by
    rw [Access.resolvePath, run_bind_direct, rootLooked, ← split]
    rfl
  have split := Path.components_intercalate proper
  refine ⟨"/" ++ "/".intercalate (descent name top), ?_⟩
  rw [Access.pathOf, run_bind_direct]
  change ∃ entry, (((tree.direct (m := Id)).climb (number 0) _ (number 0)
    (descent name 0)).run.bind _ = _) ∧ _
  rw [climbed, resolved _ split]
  cases top with
  | zero =>
    rw [met]
    exact ⟨_, rfl, rfl, rootLooked, congrArg some rootNumber, fun _ => rfl⟩
  | succ place =>
    obtain ⟨record, kept, itsNumber, _⟩ := ancestry.entered 0 (by omega)
    obtain ⟨stored, found⟩ := findRecord_kept wellFormed kept
    refine ⟨⟨stored, record⟩, rfl, ?_, ?_, itsNumber, ?_⟩
    · rw [follow_ancestry wellFormed ancestry _ within rfl (rootNumber.trans met.symm)]
      exact found
    · exact (lookupCnid_threaded wellFormed (ancestry.threaded 0 (by omega))).trans found
    · exact fun isRoot => absurd isRoot (first 0 (Nat.succ_pos place))

end Ways

end Queries

end Catalog

end HfsPlus
