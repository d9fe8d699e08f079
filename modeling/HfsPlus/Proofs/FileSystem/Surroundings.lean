import HfsPlus.Proofs.FileSystem.Shelf

/-!
# What surrounds a shelf goes unnoticed

Trees and nodes are remembered on a shelf, and around the shelf there may be more: a log, or the
state of something that files are copied to. Remembering is done in the same way whatever there
is. So in surroundings that agree the same trees are opened and the same nodes are cached, and the
same is left on the shelf.
-/

namespace HfsPlus

namespace Agreement

variable {M N : Type → Type} [Monad M] [Monad N] [Logging M] [Logging N]
variable [LawfulMonad M] [LawfulMonad N] (agreement : Agreement M N)

/-- A node is got through a cache in the same way, and the cache is left alike. -/
theorem cached {Key Value : Type} (tree : Tree Key Value) :
    (agreement.stateT (RecencyCache Node)).Accesses (tree.cached (m := M))
      (tree.cached (m := N)) where
  tree := rfl
  node verified number := by
    refine holds_next _ (holds_outcome _ (tree.checkRange number)) fun _ => ?_
    refine holds_next _ agreement.state_read fun cache => ?_
    rcases cache.get (cacheKey tree.id number) with ⟨hit, moved⟩
    refine holds_next _ (agreement.state_written moved) fun _ => ?_
    refine holds_noted _ _ ?_
    cases hit with
    | some node => exact holds_same _ node
    | none =>
      refine holds_next _ (Agreement.fetch (agreement.stateT _) tree verified number) ?_
      rintro ⟨node, _ | _⟩
      · exact holds_same _ node
      · refine holds_next _ agreement.state_read fun cache => ?_
        rcases cache.set (cacheKey tree.id number) node with ⟨kept, evicted⟩
        refine holds_next _ (agreement.state_written kept) fun _ => ?_
        cases evicted with
        | none => exact holds_same _ node
        | some evicted => exact holds_noted _ _ (holds_same _ node)

omit [LawfulMonad M] [LawfulMonad N] in
/-- Work on a part of a state is the same where it is the same on that part. -/
theorem zoom {σ τ α : Type} {part : σ → τ} {withPart : σ → τ → σ} {left : StateT τ M α}
    {right : StateT τ N α} (same : (agreement.stateT τ).holds Eq left right) :
    (agreement.stateT σ).holds Eq (Shelf.zoom part withPart left)
      (Shelf.zoom part withPart right) := by
  intro whole
  refine agreement.holds_bind (same (part whole)) ?_
  rintro ⟨value, changed⟩ ⟨_, _⟩ ⟨rfl, rfl⟩
  exact agreement.holds_pure ⟨rfl, rfl⟩

/-- Nodes are got through a cache on a shelf in the same way. -/
theorem through_same {Key Value : Type} (cache : Shelf → RecencyCache Node)
    (withCache : Shelf → RecencyCache Node → Shelf) (tree : Tree Key Value) :
    (agreement.stateT Shelf).Accesses (Shelf.through (m := M) cache withCache tree)
      (Shelf.through (m := N) cache withCache tree) where
  tree := rfl
  node verified number :=
    holds_mk _ (agreement.zoom (holds_run _ ((agreement.cached tree).node verified number)))

/-- What is opened in the same way is opened once in the same way. -/
theorem once_same {α : Type} {place : Shelf → Option α} {withPlace : Shelf → α → Shelf}
    {left : ExceptT Error (StateT Shelf M) α} {right : ExceptT Error (StateT Shelf N) α}
    (same : ((agreement.stateT Shelf).exceptT Error).holds Eq left right) :
    ((agreement.stateT Shelf).exceptT Error).holds Eq (Shelf.once place withPlace left)
      (Shelf.once place withPlace right) := by
  refine holds_next _ agreement.state_read fun shelf => ?_
  cases place shelf with
  | some value => exact holds_same _ value
  | none =>
    refine holds_next _ same fun value => ?_
    exact holds_next _ (agreement.state_changed _) fun _ => holds_same _ value

variable (system : FileSystem)

/-- The overflow tree is remembered in the same way. -/
theorem remembered_extents : ((agreement.stateT Shelf).exceptT Error).holds
    (agreement.stateT Shelf).Accesses (system.remembering (m := M)).extents
    (system.remembering (m := N)).extents := by
  refine holds_map _ _ _ (agreement.once_same (openExtents _ system)) ?_
  rintro tree _ rfl
  exact agreement.through_same _ _ tree

/-- The catalog is remembered in the same way. -/
theorem remembered_catalog : ((agreement.stateT Shelf).exceptT Error).holds
    (agreement.stateT Shelf).Accesses (system.remembering (m := M)).catalog
    (system.remembering (m := N)).catalog := by
  refine holds_map _ _ _ (agreement.once_same
    (openCatalog _ (agreement.remembered_extents system) system)) ?_
  rintro tree _ rfl
  exact agreement.through_same _ _ tree

/-- The attributes tree is remembered in the same way, and so is its absence. -/
theorem remembered_attributes : ((agreement.stateT Shelf).exceptT Error).holds
    (Option.Rel (agreement.stateT Shelf).Accesses) (system.remembering (m := M)).attributes
    (system.remembering (m := N)).attributes := by
  refine holds_map _ _ _ (agreement.once_same
    (openAttributes _ (agreement.remembered_extents system) system)) ?_
  rintro (_ | tree) _ rfl
  · exact .none
  · exact .some (agreement.through_same _ _ tree)

/-- The tree of hot files is remembered in the same way, with its description, and so is its
absence. -/
theorem remembered_hotFiles : ((agreement.stateT Shelf).exceptT Error).holds
    (Option.Rel fun left right => (agreement.stateT Shelf).Accesses left.1 right.1 ∧ left.2 = right.2)
    (system.remembering (m := M)).hotFiles (system.remembering (m := N)).hotFiles := by
  refine holds_map _ _ _ (agreement.once_same (openHotFiles _ (agreement.remembered_extents system)
    system (agreement.remembered_catalog system))) ?_
  rintro (_ | ⟨tree, info⟩) _ rfl
  · exact .none
  · exact .some ⟨agreement.through_same _ _ tree, rfl⟩

/-- In surroundings that agree trees and nodes are remembered alike. -/
theorem remembered : (agreement.stateT Shelf).Inspections (system.remembering (m := M))
    (system.remembering (m := N)) where
  system := rfl
  extents := agreement.remembered_extents system
  catalog := agreement.remembered_catalog system
  attributes := agreement.remembered_attributes system
  hotFiles := agreement.remembered_hotFiles system

end Agreement

namespace FileSystem

variable (system : FileSystem) {ω α β γ : Type}

end FileSystem

end HfsPlus
