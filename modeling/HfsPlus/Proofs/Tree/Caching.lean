import HfsPlus.Proofs.RecencyCache
import HfsPlus.Proofs.Tree.Answers
import HfsPlus.Proofs.Tree.Node

/-!
# Caches that cannot be noticed

A hit in the cache of a tree skips the stream and the verification of a node. What
makes that safe is an invariant of the cache, `Tree.Keeps`: every resident node is kept
under the key of its number, and is the node that the stream stores under that number.
Only nodes that were just read and found sound are put in, damaged ones never, so every
way of asking for a node keeps the invariant; and from every cache with it a node is
handed out exactly as it would be without any cache.

By agreement the same holds of everything that is asked of a tree, one request after
the other, whatever the capacity and whatever the stream holds.
-/

namespace HfsPlus

variable {Key Value : Type}

/-- Nodes of one tree are cached under different keys. -/
theorem cacheKey_injective {tree left right : UInt32}
    (same : cacheKey tree left = cacheKey tree right) : left = right := by
  unfold cacheKey at same
  exact UInt32.toNat_inj.mp (by omega)

namespace Tree

variable (tree : Tree Key Value)

/-- Every resident node is kept under the key of its number and is the stored node of
that number. -/
def Keeps (cache : RecencyCache Node) : Prop :=
  ∀ entry ∈ cache.entries, ∃ number,
    entry.1 = cacheKey tree.id number ∧ tree.stored number = .ok entry.2

/-- An empty cache keeps nothing that it should not. -/
theorem keeps_empty (capacity : Nat) : tree.Keeps (.empty capacity) := by
  intro entry resident
  simp [RecencyCache.empty] at resident

/-- Asking a cache for a node hands out the resident node on a hit. On a miss the node
is read as it would be without a cache, and is stored if all its records can be read. -/
theorem cached_run (verified : Bool) (number : UInt32) (cache : RecencyCache Node)
    (inside : tree.checkRange number = .ok ()) :
    ((tree.cached (m := Id)).node verified number).run.run cache =
      match cache.get (cacheKey tree.id number) with
      | (some node, moved) => (.ok node, moved)
      | (none, moved) =>
        match (tree.fetch verified number : ExceptT Error Id (Node × Bool)).run with
        | .error cause => (.error cause, moved)
        | .ok (node, sound) =>
          (.ok node, if sound then (moved.set (cacheKey tree.id number) node).1 else moved) := by
  unfold Tree.cached
  dsimp only
  rw [inside, run_known, run_get]
  rcases cache.get (cacheKey tree.id number) with ⟨_ | node, moved⟩
  · obtain ⟨same, still⟩ := (Agreement.ofInvariant (· = moved)).holds_run
      (Agreement.fetch _ tree verified number) moved rfl
    dsimp only
    rw [run_set, run_log, run_bind]
    rcases fetched : (tree.fetch verified number : ExceptT Error (StateT (RecencyCache Node) Id)
      (Node × Bool)).run.run moved with ⟨outcome, after⟩
    rw [fetched] at same still
    dsimp only at still
    subst still
    rw [show (tree.fetch verified number : ExceptT Error Id (Node × Bool)).run = outcome from
      same.symm]
    rcases outcome with cause | ⟨node, _ | _⟩
    · rfl
    · rfl
    · dsimp only
      rw [if_pos rfl, if_pos rfl, run_get, run_set]
      cases (after.set (cacheKey tree.id number) node).2 <;> rfl
  · rfl

variable {tree} {cache : RecencyCache Node} (kept : tree.Keeps cache)
include kept

/-- What is found in a cache is the stored node of the number that was asked for. -/
theorem Keeps.stored_of_hit {number : UInt32} {node : Node}
    (hit : (cache.get (cacheKey tree.id number)).1 = some node) : tree.stored number = .ok node := by
  obtain ⟨owner, sameKey, stored⟩ := kept _ (RecencyCache.mem_of_get_hit hit)
  rw [cacheKey_injective sameKey]
  exact stored

/-- Looking a node up keeps the invariant. -/
theorem Keeps.get (key : Nat) : tree.Keeps (cache.get key).2 := fun _ resident =>
  kept _ (RecencyCache.mem_of_mem_get resident)

/-- Storing a stored node keeps the invariant. -/
theorem Keeps.set {number : UInt32} {node : Node} (stored : tree.stored number = .ok node) :
    tree.Keeps (cache.set (cacheKey tree.id number) node).1 := by
  intro entry resident
  rcases RecencyCache.mem_of_mem_set resident with rfl | before
  · exact ⟨number, rfl, stored⟩
  · exact kept _ before

/-- From a cache with the invariant a node is handed out as it is without a cache, be it
sound, damaged or out of range, and the invariant is kept. A hit needs no verification
because what is resident was verified; damaged nodes are handed out but not stored. -/
theorem Keeps.node (verified : Bool) (number : UInt32) :
    (((tree.cached (m := Id)).node verified number).run.run cache).1 =
        ((tree.direct (m := Id)).node verified number).run ∧
      tree.Keeps (((tree.cached (m := Id)).node verified number).run.run cache).2 := by
  cases inside : tree.checkRange number with
  | error cause =>
    unfold Tree.cached Tree.direct
    dsimp only
    rw [inside]
    exact ⟨rfl, kept⟩
  | ok done =>
    rw [tree.cached_run verified number cache inside, direct_node]
    have keptMoved := kept.get (cacheKey tree.id number)
    rcases looked : cache.get (cacheKey tree.id number) with ⟨_ | node, moved⟩
    · rw [looked] at keptMoved
      dsimp only
      rw [tree.fetch_direct verified number inside]
      cases parsed : tree.parsed number with
      | error cause =>
        rw [tree.stored_of_refused parsed]
        cases verified <;> exact ⟨rfl, keptMoved⟩
      | ok node =>
        rw [stored_of_parsed tree parsed]
        dsimp only [Except.bind]
        cases sound : tree.verify node with
        | ok done =>
          have stored : tree.stored number = .ok node := tree.stored_eq_ok.mpr ⟨parsed, sound⟩
          cases verified <;> exact ⟨rfl, keptMoved.set stored⟩
        | error cause => cases verified <;> exact ⟨rfl, keptMoved⟩
    · have stored : tree.stored number = .ok node := kept.stored_of_hit (by rw [looked])
      rw [looked] at keptMoved
      have parsed := (tree.stored_eq_ok.mp stored).1
      rw [stored, parsed]
      cases verified <;> exact ⟨rfl, keptMoved⟩

omit kept in
/-- Getting nodes through a cache agrees with reading each one anew. -/
theorem cached_direct (tree : Tree Key Value) :
    (Agreement.ofInvariant tree.Keeps).Accesses (tree.cached (m := Id)) (tree.direct (m := Id)) where
  tree := rfl
  node verified number cache kept := by
    obtain ⟨same, keptAfter⟩ := Keeps.node kept verified number
    exact ⟨same ▸ Agreement.outcomes_same _, keptAfter⟩

end Tree

end HfsPlus
