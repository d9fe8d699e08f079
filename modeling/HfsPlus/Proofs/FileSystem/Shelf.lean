import HfsPlus.Proofs.FileSystem.Answers
import HfsPlus.Proofs.Tree.Caching

/-!
# Shelves that remember faithfully

A shelf remembers the trees that were opened and some of their nodes. It does so
faithfully, `Shelf.Faithful`, if every tree on it is the one that opening it anew would
give, and if the cache of each tree keeps nothing but stored nodes. An empty shelf is
faithful, and every query leaves a faithful shelf behind: a tree is put on it only after
it was opened, and a tree that cannot be opened is never on it.

The trees depend on each other: the catalog and the attributes need the overflow tree,
and the hot files need the catalog too. So that remembering one of them agrees with
opening it anew rests on the same having been shown of those that it needs.
-/

namespace HfsPlus

/-- What is remembered of an outcome is the outcome. -/
def Recalls {α : Type} (outcome : Except Error α) (remembered : Option α) : Prop :=
  ∀ value, remembered = some value → outcome = .ok value

namespace FileSystem

variable (system : FileSystem)

/-- The overflow tree, as the bytes of the volume say. -/
def extentsTree : Except Error (Tree ExtentKey ExtentRecord) :=
  (system.openExtents : ExceptT Error Id _).run

/-- The catalog, as the bytes of the volume say. -/
def catalogTree : Except Error (Tree CatalogKey CatalogRecord) :=
  (system.openCatalog (system.direct (m := Id)).extents).run

/-- The attributes tree, as the bytes of the volume say. -/
def attributesTree : Except Error (Option (Tree AttributeKey AttributeValue)) :=
  (system.openAttributes (system.direct (m := Id)).extents).run

/-- The tree of hot files, as the bytes of the volume say. -/
def hotFilesTree : Except Error (Option (Tree HotFileKey HotFileRecord × HotFilesInfo)) :=
  (system.openHotFiles (system.direct (m := Id)).extents (system.direct (m := Id)).catalog).run

end FileSystem

/-- A shelf remembers nothing but what opening and reading anew would give. -/
structure Shelf.Faithful (system : FileSystem) (shelf : Shelf) : Prop where
  extents : Recalls system.extentsTree shelf.extents
  catalog : Recalls system.catalogTree shelf.catalog
  attributes : Recalls system.attributesTree shelf.attributes
  hotFiles : Recalls system.hotFilesTree shelf.hotFiles
  extentsCache : ∀ tree, system.extentsTree = .ok tree → tree.Keeps shelf.extentsCache
  catalogCache : ∀ tree, system.catalogTree = .ok tree → tree.Keeps shelf.catalogCache
  attributesCache : ∀ tree, system.attributesTree = .ok (some tree) →
    tree.Keeps shelf.attributesCache
  hotFilesCache : ∀ tree info, system.hotFilesTree = .ok (some (tree, info)) →
    tree.Keeps shelf.hotFilesCache

/-- An empty shelf is faithful. -/
theorem Shelf.faithful_empty (system : FileSystem) (capacity : Nat) :
    (Shelf.empty capacity).Faithful system where
  extents _ := nofun
  catalog _ := nofun
  attributes _ := nofun
  hotFiles _ := nofun
  extentsCache tree _ := tree.keeps_empty capacity
  catalogCache tree _ := tree.keeps_empty capacity
  attributesCache tree _ := tree.keeps_empty capacity
  hotFilesCache tree _ _ := tree.keeps_empty capacity

namespace Agreement

variable {invariant : Shelf → Prop}

/-- Nodes that are got through a cache on a shelf agree with nodes read anew, if the
invariant of the shelf says that the cache keeps nothing but stored nodes. -/
theorem through {Key Value : Type} {tree : Tree Key Value} {cache : Shelf → RecencyCache Node}
    {withCache : Shelf → RecencyCache Node → Shelf}
    (kept : ∀ shelf, invariant shelf → tree.Keeps (cache shelf))
    (replaced : ∀ shelf changed, invariant shelf → tree.Keeps changed →
      invariant (withCache shelf changed)) :
    (ofInvariant invariant).Accesses (Shelf.through cache withCache tree)
      (tree.direct (m := Id)) where
  tree := rfl
  node verified number shelf sound := by
    obtain ⟨same, keptAfter⟩ := (kept shelf sound).node verified number
    exact ⟨same ▸ outcomes_same _, replaced shelf _ sound keptAfter⟩

/-- Opening something once agrees with opening it anew, and what was opened is then known
to be its outcome. -/
theorem once {α : Type} {place : Shelf → Option α} {withPlace : Shelf → α → Shelf}
    {opened : ExceptT Error (StateT Shelf Id) α} {anew : ExceptT Error Id α}
    (same : ((ofInvariant invariant).exceptT Error).holds Eq opened anew)
    (recalled : ∀ shelf, invariant shelf → Recalls anew.run (place shelf))
    (remembered : ∀ shelf value, invariant shelf → anew.run = .ok value →
      invariant (withPlace shelf value)) :
    ((ofInvariant invariant).exceptT Error).holds
      (fun left right => left = right ∧ anew.run = .ok right)
      (Shelf.once place withPlace opened) anew := by
  intro shelf sound
  unfold Shelf.once
  rw [run_get]
  cases onShelf : place shelf with
  | some value =>
    have outcome := recalled shelf sound value onShelf
    refine ⟨?_, sound⟩
    change Outcomes _ (.ok value) anew.run
    rw [outcome]
    exact ⟨rfl, rfl⟩
  | none =>
    obtain ⟨outcomes, soundAfter⟩ := same shelf sound
    have outcome := outcomes_eq outcomes
    dsimp only
    rw [run_bind]
    rcases ran : opened.run.run shelf with ⟨cause | value, after⟩
    · rw [ran] at outcome soundAfter
      refine ⟨?_, soundAfter⟩
      change Outcomes _ (.error cause) anew.run
      rw [show anew.run = .error cause from outcome.symm]
      rfl
    · rw [ran] at outcome soundAfter
      have opens : anew.run = .ok value := outcome.symm
      refine ⟨?_, remembered after value soundAfter opens⟩
      change Outcomes _ (.ok value) anew.run
      rw [opens]
      exact ⟨rfl, rfl⟩

end Agreement

namespace FileSystem

variable (system : FileSystem)

/-- What agrees from every faithful shelf, and leaves a faithful shelf behind. -/
abbrev faithfully : Agreement (StateT Shelf Id) Id :=
  .ofInvariant (Shelf.Faithful system)

/-- The overflow tree is come by as if it were opened anew. -/
theorem remembering_extents : (system.faithfully.exceptT Error).holds system.faithfully.Accesses
    (system.remembering (m := Id)).extents (system.direct (m := Id)).extents := by
  refine Agreement.holds_map _ _ _ (Agreement.once (system.faithfully.openExtents system)
    (fun shelf sound => sound.extents) ?_) ?_
  · intro shelf tree sound opened
    exact { sound with extents := fun value same => Option.some.inj same ▸ opened }
  · rintro tree _ ⟨rfl, opened⟩
    refine Agreement.through (fun shelf sound => sound.extentsCache tree opened) ?_
    intro shelf changed sound kept
    refine { sound with extentsCache := fun other same => ?_ }
    obtain rfl : tree = other := Except.ok.inj (opened.symm.trans same)
    exact kept

/-- The catalog is come by as if it were opened anew. -/
theorem remembering_catalog : (system.faithfully.exceptT Error).holds system.faithfully.Accesses
    (system.remembering (m := Id)).catalog (system.direct (m := Id)).catalog := by
  refine Agreement.holds_map _ _ _ (Agreement.once
    (system.faithfully.openCatalog system.remembering_extents system)
    (fun shelf sound => sound.catalog) ?_) ?_
  · intro shelf tree sound opened
    exact { sound with catalog := fun value same => Option.some.inj same ▸ opened }
  · rintro tree _ ⟨rfl, opened⟩
    refine Agreement.through (fun shelf sound => sound.catalogCache tree opened) ?_
    intro shelf changed sound kept
    refine { sound with catalogCache := fun other same => ?_ }
    obtain rfl : tree = other := Except.ok.inj (opened.symm.trans same)
    exact kept

/-- The attributes tree is come by as if it were opened anew, and so is its absence. -/
theorem remembering_attributes :
    (system.faithfully.exceptT Error).holds (Option.Rel system.faithfully.Accesses)
      (system.remembering (m := Id)).attributes (system.direct (m := Id)).attributes := by
  refine Agreement.holds_map _ _ _ (Agreement.once
    (system.faithfully.openAttributes system.remembering_extents system)
    (fun shelf sound => sound.attributes) ?_) ?_
  · intro shelf tree sound opened
    exact { sound with attributes := fun value same => Option.some.inj same ▸ opened }
  · rintro (_ | tree) _ ⟨rfl, opened⟩
    · exact .none
    · refine .some (Agreement.through (fun shelf sound => sound.attributesCache tree opened) ?_)
      intro shelf changed sound kept
      refine { sound with attributesCache := fun other same => ?_ }
      obtain rfl : tree = other := Option.some.inj (Except.ok.inj (opened.symm.trans same))
      exact kept

/-- The tree of hot files is come by as if it were opened anew, with its description,
and so is its absence. -/
theorem remembering_hotFiles :
    (system.faithfully.exceptT Error).holds
      (Option.Rel fun left right => system.faithfully.Accesses left.1 right.1 ∧ left.2 = right.2)
      (system.remembering (m := Id)).hotFiles (system.direct (m := Id)).hotFiles := by
  refine Agreement.holds_map _ _ _ (Agreement.once
    (system.faithfully.openHotFiles system.remembering_extents system system.remembering_catalog)
    (fun shelf sound => sound.hotFiles) ?_) ?_
  · intro shelf opened sound outcome
    exact { sound with hotFiles := fun value same => Option.some.inj same ▸ outcome }
  · rintro (_ | ⟨tree, info⟩) _ ⟨rfl, opened⟩
    · exact .none
    · refine .some ⟨Agreement.through
        (fun shelf sound => sound.hotFilesCache tree info opened) ?_, rfl⟩
      intro shelf changed sound kept
      refine { sound with hotFilesCache := fun other description same => ?_ }
      obtain ⟨⟩ := Option.some.inj (Except.ok.inj (opened.symm.trans same))
      exact kept

/-- Remembering trees and nodes agrees with opening and reading everything anew. -/
theorem remembering_direct :
    system.faithfully.Inspections (system.remembering (m := Id)) (system.direct (m := Id)) where
  system := rfl
  extents := system.remembering_extents
  catalog := system.remembering_catalog
  attributes := system.remembering_attributes
  hotFiles := system.remembering_hotFiles

end FileSystem

end HfsPlus
