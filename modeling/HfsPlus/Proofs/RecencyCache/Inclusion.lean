import HfsPlus.Proofs.RecencyCache.Recency

/-!
# A larger cache does no worse

Two caches that are asked the same need not hold the same: the larger one keeps what the
smaller one dropped, a look-up can move an entry in the larger one alone, and what is
taken out may leave a gap in one of them and none in the other. What every request keeps
is that the entries of the smaller cache are among those of the larger one, in the same
order, and that the larger one has no more entries besides than its capacity is larger
(`Within`). With the order alone a dropped entry could still be missing in the larger
cache; with the number of the others as well it cannot.
-/

namespace HfsPlus.RecencyCache

variable {α : Type} {small large : RecencyCache α} {key : Nat} {value : α}

/-- The entries of a smaller cache are among those of a larger one in the same order, and
those that are not are no more than the capacities differ by. -/
structure Within (small large : RecencyCache α) : Prop where
  capacity : small.capacity ≤ large.capacity
  entries : small.entries.Sublist large.entries
  others : large.size + small.capacity ≤ small.size + large.capacity
  hits : small.hits ≤ large.hits

/-- If one list is part of another, and lacks a few entries of it, so are its first entries
part of the first ones of the other, when there are as many more of them. -/
theorem take_sublist_take {β : Type} {part whole : List β} (ordered : part.Sublist whole)
    (count lacking : Nat) (few : whole.length ≤ part.length + lacking) :
    (part.take count).Sublist (whole.take (count + lacking)) := by
  induction ordered generalizing count lacking with
  | slnil => simp
  | @cons part whole entry rest inductionHypothesis =>
    have fewer := rest.length_le
    rw [List.length_cons] at few
    obtain ⟨lacking, rfl⟩ : ∃ less, lacking = less + 1 := ⟨lacking - 1, by omega⟩
    exact (inductionHypothesis count lacking (by omega)).cons entry
  | @cons_cons part whole entry rest inductionHypothesis =>
    cases count with
    | zero => exact List.nil_sublist _
    | succ count =>
      rw [List.length_cons, List.length_cons] at few
      rw [List.take_succ_cons, Nat.add_right_comm, List.take_succ_cons]
      exact (inductionHypothesis count lacking (by omega)).cons_cons entry

/-- What is found in the smaller cache is found in the larger one. -/
theorem Within.found (within : Within small large) (distinct : large.keys.Nodup)
    (found : small.peek? key = some value) : large.peek? key = some value :=
  (peek?_eq_some distinct).mpr (within.entries.subset (mem_of_peek? found))

/-- The other entries of the smaller cache are among the other entries of the larger one. -/
theorem Within.besides (within : Within small large) (key : Nat) :
    (small.others key).Sublist (large.others key) :=
  within.entries.filter _

/-- Without a key, the smaller cache lacks no more entries than before: what the larger one
loses is at least what the smaller one does. -/
theorem Within.length_others (within : Within small large) (key : Nat) :
    (large.others key).length + small.size ≤ (small.others key).length + large.size := by
  have lost := within.entries.countP_le (p := fun entry => decide ¬ (entry.1 != key) = true)
  have smaller := small.entries.length_eq_countP_add_countP fun entry => entry.1 != key
  have larger := large.entries.length_eq_countP_add_countP fun entry => entry.1 != key
  simp only [RecencyCache.others, size, ← List.countP_eq_length_filter]
  omega

/-- Looking a key up keeps the smaller cache within the larger one, also when only the
larger one has it. -/
theorem Within.look (within : Within small large) (distinct : large.keys.Nodup) (key : Nat) :
    Within (small.get key).2 (large.get key).2 := by
  have besides := within.besides key
  have lengths := within.length_others key
  have capacity := within.capacity
  have others := within.others
  have hits := within.hits
  cases inSmall : small.peek? key with
  | some value =>
    rw [get_hit inSmall, get_hit (within.found distinct inSmall)]
    refine ⟨capacity, besides.cons_cons (key, value), ?_, Nat.succ_le_succ hits⟩
    simp only [size, List.length_cons] at lengths others ⊢
    omega
  | none =>
    rw [get_miss inSmall]
    cases inLarge : large.peek? key with
    | none =>
      rw [get_miss inLarge]
      exact ⟨capacity, within.entries, others, hits⟩
    | some value =>
      rw [get_hit inLarge]
      rw [others_of_absent (peek?_eq_none.mp inSmall)] at besides
      have less := length_others_lt (mem_keys_iff.mpr ⟨value, inLarge⟩)
      refine ⟨capacity, besides.cons (key, value), ?_, Nat.le_succ_of_le hits⟩
      simp only [size, List.length_cons] at less others ⊢
      omega

/-- Storing a value keeps the smaller cache within the larger one. Both drop what is beyond
their capacities, and by the number of others nothing is dropped from the larger one that
the smaller one has room for. -/
theorem Within.store (within : Within small large) (boundedSmall : small.size ≤ small.capacity)
    (key : Nat) (value : α) : Within (small.set key value).1 (large.set key value).1 := by
  have capacity := within.capacity
  have others := within.others
  have lengths := within.length_others key
  obtain smallNone | smallSome := Nat.eq_zero_or_pos small.capacity
  · have empty : small.entries = [] := by
      rw [smallNone] at boundedSmall
      exact List.eq_nil_of_length_eq_zero (Nat.le_zero.mp boundedSmall)
    rw [set_of_zero smallNone]
    obtain largeNone | largeSome := Nat.eq_zero_or_pos large.capacity
    · rw [set_of_zero largeNone]
      exact within
    · rw [set_entries largeSome]
      refine ⟨capacity, ?_, ?_, within.hits⟩
      · rw [empty]
        exact List.nil_sublist _
      · simp only [size, empty, smallNone, List.length_nil, List.length_cons, List.length_take]
        omega
  · have largeSome : 0 < large.capacity := Nat.lt_of_lt_of_le smallSome capacity
    have few : (large.others key).length ≤
        (small.others key).length + (large.capacity - small.capacity) := by omega
    have more : small.capacity - 1 + (large.capacity - small.capacity) = large.capacity - 1 := by
      omega
    have kept := take_sublist_take (within.besides key) (small.capacity - 1) _ few
    rw [more] at kept
    rw [set_entries smallSome, set_entries largeSome]
    refine ⟨capacity, kept.cons_cons (key, value), ?_, within.hits⟩
    simp only [size, List.length_cons, List.length_take]
    omega

/-- Taking an entry out keeps the smaller cache within the larger one. -/
theorem Within.takeOut (within : Within small large) (key : Nat) :
    Within (small.remove key).2 (large.remove key).2 := by
  have others := within.others
  have lengths := within.length_others key
  refine ⟨within.capacity, within.besides key, ?_, within.hits⟩
  change (large.others key).length + small.capacity ≤ (small.others key).length + large.capacity
  omega

/-- So every request keeps the smaller cache within the larger one. -/
theorem Within.served (within : Within small large) (boundedSmall : small.size ≤ small.capacity)
    (distinct : large.keys.Nodup) (request : Request α) :
    Within (small.serve request).2 (large.serve request).2 := by
  cases request with
  | get key => exact within.look distinct key
  | set key value => exact within.store boundedSmall key value
  | remove key => exact within.takeOut key

/-- After the same history, the smaller of two caches is within the larger one. -/
theorem within_after {smaller larger : Nat} (ordered : smaller ≤ larger)
    (history : List (Request α)) : Within (after smaller history) (after larger history) := by
  induction history with
  | nil => exact ⟨ordered, List.Sublist.refl [], Nat.add_le_add_left ordered 0, Nat.le_refl 0⟩
  | cons request earlier inductionHypothesis =>
    exact inductionHypothesis.served (after_bounded smaller earlier) (keys_nodup larger earlier)
      request

/-- **A larger cache does no worse.** After the same history, whatever is found in the smaller of
two caches is found in the larger one with the same value, and the larger one had at least as many
hits. The same holds of the counted stores that the caches stand for, which answer as they do. -/
theorem larger_includes_smaller {σ : Type} (store : BoundedStore σ α)
    (entries : σ → List (Nat × α)) (orderly : store.Orderly entries) {smaller larger : Nat}
    (ordered : smaller ≤ larger) (history : List (Request α)) :
    let small := CountedStore.after store smaller history
    let large := CountedStore.after store larger history
    Mirrors store entries small (after smaller history) ∧
      Mirrors store entries large (after larger history) ∧
      (∀ key value, (after smaller history).peek? key = some value →
        (after larger history).peek? key = some value) ∧
      (after smaller history).hits ≤ (after larger history).hits ∧
      (∀ key value, (small.get store key).1 = some value → (large.get store key).1 = some value) ∧
      small.hits ≤ large.hits := by
  intro small large
  have within := within_after ordered history
  have smallMirrors := mirrors_after orderly smaller history
  have largeMirrors := mirrors_after orderly larger history
  have found : ∀ key value, (after smaller history).peek? key = some value →
      (after larger history).peek? key = some value :=
    fun key value => within.found (keys_nodup larger history)
  refine ⟨smallMirrors, largeMirrors, found, within.hits, ?_, ?_⟩
  · intro key value
    rw [(smallMirrors.get_same orderly key).1, (largeMirrors.get_same orderly key).1, get_fst,
      get_fst]
    exact found key value
  · rw [smallMirrors.hits, largeMirrors.hits]
    exact within.hits

/-- Of three keys the larger cache still finds the first, which makes its order another one, and
what both find afterwards is the same. -/
theorem larger_includes_smaller_sample :
    let history : List (Request Nat) := [.get 1, .remove 3, .set 3 30, .set 2 20, .set 1 10]
    let small := after 2 history
    let large := after 3 history
    (asStore : BoundedStore (RecencyCache Nat) Nat).Orderly (·.entries) ∧ 2 ≤ 3 ∧
      small.keys = [2] ∧ large.keys = [1, 2] ∧
      small.peek? 2 = some 20 ∧ large.peek? 2 = some 20 ∧ small.hits ≤ large.hits := by
  intro history small large
  obtain ⟨_, _, found, hits, _⟩ :=
    larger_includes_smaller asStore (·.entries) asStore_orderly (by decide : 2 ≤ 3) history
  have held : small.peek? 2 = some 20 := by decide
  exact ⟨asStore_orderly, by decide, by decide, by decide, held, found 2 20 held, hits⟩

end HfsPlus.RecencyCache
