import HfsPlus.Proofs.FileSystem.Shelf

/-!
# Answers have no history

Queries that are put to an opened file system one after the other open trees, fill
caches and fail midway. None of this is ever noticed by a later query: it gets the answer
that it would get if it were the first, from trees without room in their caches.
-/

namespace HfsPlus

/-- What can be asked of an opened file system. -/
inductive FileSystem.Query where
  | findRecord (parent : UInt32) (name : Name)
  | resolvePath (path : String)
  | lookupCnid (cnid : UInt32)
  | pathOf (cnid : UInt32)
  | listFolder (folder : UInt32) (limit : Option Nat)
  | attributesOf (file : UInt32)
  /-- Whether hot files are kept, and the description of their tree. -/
  | hotFiles
  | journalInfo
  /-- A copy of a fork with a digest, to something that may refuse a chunk. -/
  | copyFork (hasher : Hasher) (file : CatalogFile) (kind : ForkKind)
    (take : Bytes → Except Error Unit)
  | summary

/-- What a file system has to say to a query. -/
inductive FileSystem.Reply where
  | entry (outcome : Except Error (Option CatalogEntry))
  | path (outcome : Except Error (Option String))
  | folder (outcome : Except Error (List (Except Error CatalogEntry)))
  | attributes (outcome : Except Error (List (AttributeKey × AttributeValue)))
  | hotFiles (outcome : Except Error (Option HotFilesInfo))
  | journal (outcome : Except Error (Option JournalInfoBlock))
  /-- What was taken of a fork, and whether that was all. -/
  | copied (bytes : Bytes) (outcome : Except Error ForkCopy)
  | summary (outcome : Except Error VolumeSummary)

namespace Inspection

variable {m : Type → Type} [Monad m] [Logging m] (inspection : Inspection m)

/-- Reply to a query. -/
def answer : FileSystem.Query → m FileSystem.Reply
  | .findRecord parent name => return .entry (← (inspection.findRecord parent name).run)
  | .resolvePath path => return .entry (← (inspection.resolvePath path).run)
  | .lookupCnid cnid => return .entry (← (inspection.lookupCnid cnid).run)
  | .pathOf cnid => return .path (← (inspection.pathOf cnid).run)
  | .listFolder folder limit => return .folder (← (inspection.listFolder folder limit).run)
  | .attributesOf file => return .attributes (← (inspection.attributesOf file).run)
  | .hotFiles => return .hotFiles ((← inspection.hotFiles.run).map (·.map (·.2)))
  | .journalInfo => return .journal (← inspection.journalInfo.run)
  | .copyFork hasher file kind take => do
    let (bytes, outcome) ← inspection.copyFork hasher file kind fun chunk => liftM (take chunk)
    return .copied bytes outcome
  | .summary => return .summary (← inspection.summary.run)

/-- The replies to queries that are put one after the other. -/
def answers : List FileSystem.Query → m (List FileSystem.Reply)
  | [] => return []
  | query :: later => do
    let reply ← inspection.answer query
    return reply :: (← answers later)

end Inspection

section Agreeing

variable {M N : Type → Type} [Monad M] [Monad N] [Logging M] [Logging N]
variable [LawfulMonad M] [LawfulMonad N] {agreement : Agreement M N}
variable {left : Inspection M} {right : Inspection N} (same : agreement.Inspections left right)
include same

/-- Agreeing trees lead to the same reply. Of the tree of hot files, only its description is told,
while the accesses to it differ. -/
theorem Agreement.Inspections.answer (query : FileSystem.Query) :
    agreement.holds Eq (left.answer query) (right.answer query) := by
  cases query with
  | findRecord parent name =>
    exact agreement.holds_next (agreement.holds_run (same.findRecord parent name)) fun _ =>
      agreement.holds_same _
  | resolvePath path =>
    exact agreement.holds_next (agreement.holds_run (same.resolvePath path)) fun _ =>
      agreement.holds_same _
  | lookupCnid cnid =>
    exact agreement.holds_next (agreement.holds_run (same.lookupCnid cnid)) fun _ =>
      agreement.holds_same _
  | pathOf cnid =>
    exact agreement.holds_next (agreement.holds_run (same.pathOf cnid)) fun _ =>
      agreement.holds_same _
  | listFolder folder limit =>
    exact agreement.holds_next (agreement.holds_run (same.listFolder folder limit)) fun _ =>
      agreement.holds_same _
  | attributesOf file =>
    exact agreement.holds_next (agreement.holds_run (same.attributesOf file)) fun _ =>
      agreement.holds_same _
  | hotFiles =>
    refine agreement.holds_bind same.hotFiles ?_
    rintro (cause | leftTree) (other | rightTree) related
    · obtain rfl : cause = other := related
      exact agreement.holds_same _
    · exact related.elim
    · exact related.elim
    · rcases related with ⟨-, description⟩ | _
      · refine agreement.holds_pure ?_
        simp only [Except.map, Option.map_some, description]
      · exact agreement.holds_same _
  | journalInfo =>
    exact agreement.holds_next (agreement.holds_run same.journalInfo) fun _ =>
      agreement.holds_same _
  | copyFork hasher file kind take =>
    exact agreement.holds_next
      (same.copyFork hasher (fun chunk => agreement.holds_outcome (take chunk)) file kind) fun _ =>
      agreement.holds_same _
  | summary =>
    exact agreement.holds_next (agreement.holds_run same.summary) fun _ =>
      agreement.holds_same _

end Agreeing

namespace FileSystem

variable (system : FileSystem)

/-- From every faithful shelf a query gets the reply that it gets without a shelf, and it
leaves a faithful shelf behind. -/
theorem reply_of_faithful {shelf : Shelf} (faithful : shelf.Faithful system) (query : Query) :
    (((system.remembering (m := Id)).answer query).run shelf).1 =
        ((system.direct (m := Id)).answer query).run ∧
      (((system.remembering (m := Id)).answer query).run shelf).2.Faithful system :=
  system.remembering_direct.answer query shelf faithful

/-- From every faithful shelf each of several queries gets the reply that it gets without
a shelf. Induct over the queries; each leaves a faithful shelf to the next. -/
theorem replies_of_faithful {shelf : Shelf} (faithful : shelf.Faithful system)
    (queries : List Query) :
    (((system.remembering (m := Id)).answers queries).run shelf).1 =
        queries.map (fun query => ((system.direct (m := Id)).answer query).run) ∧
      (((system.remembering (m := Id)).answers queries).run shelf).2.Faithful system := by
  induction queries generalizing shelf with
  | nil => exact ⟨rfl, faithful⟩
  | cons query later inductionHypothesis =>
    obtain ⟨same, next⟩ := system.reply_of_faithful faithful query
    obtain ⟨sameLater, last⟩ := inductionHypothesis next
    refine ⟨?_, last⟩
    rw [List.map_cons, ← same, ← sameLater]
    rfl

/-- **Answers have no history.** Whatever a volume holds, however many nodes the trees
may cache, and whatever was asked before, each query gets the answer or the error that
it would get as the first query to a file system just opened, whose trees cache
nothing. -/
theorem history_unnoticed (capacity : Nat) (queries : List Query) :
    (((system.remembering (m := Id)).answers queries).run (.empty capacity)).1 =
      queries.map fun query =>
        (((system.remembering (m := Id)).answer query).run (.empty 0)).1 := by
  rw [(system.replies_of_faithful (Shelf.faithful_empty system capacity) queries).1]
  refine List.map_congr_left fun query _ => ?_
  exact (system.reply_of_faithful (Shelf.faithful_empty system 0) query).1.symm

end FileSystem

end HfsPlus
