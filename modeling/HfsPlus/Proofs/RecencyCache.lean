import HfsPlus.RecencyCache

/-!
# What a cache can hold

Neither a look-up nor storing a value brings anything into a cache but the value that
is stored: every entry that is resident afterwards was resident before, or is the one
just stored. A look-up that hits finds an entry of its key.
-/

namespace HfsPlus.RecencyCache

variable {α : Type} {cache : RecencyCache α} {key : Nat} {value : α} {entry : Nat × α}

/-- The entries under other keys are entries. -/
theorem mem_of_mem_others (resident : entry ∈ cache.others key) : entry ∈ cache.entries :=
  (List.mem_filter.mp resident).1

/-- What is found under a key is kept under that key. -/
theorem mem_of_peek? (found : cache.peek? key = some value) : (key, value) ∈ cache.entries := by
  obtain ⟨⟨kept, stored⟩, first, rfl⟩ := Option.map_eq_some_iff.mp found
  have same : kept = key := by simpa using List.find?_some first
  exact same ▸ List.mem_of_find?_eq_some first

/-- A hit finds what is kept under its key. -/
theorem mem_of_get_hit (hit : (cache.get key).1 = some value) : (key, value) ∈ cache.entries := by
  apply mem_of_peek?
  unfold get at hit
  split at hit
  · rename_i kept found
    exact found.trans hit
  · simp at hit

/-- A look-up brings no entry in. -/
theorem mem_of_mem_get (resident : entry ∈ (cache.get key).2.entries) :
    entry ∈ cache.entries := by
  unfold get at resident
  split at resident
  · rename_i kept found
    rcases List.mem_cons.mp resident with rfl | other
    · exact mem_of_peek? found
    · exact mem_of_mem_others other
  · exact resident

/-- Storing a value brings no other entry in. -/
theorem mem_of_mem_set (resident : entry ∈ (cache.set key value).1.entries) :
    entry = (key, value) ∨ entry ∈ cache.entries := by
  unfold set at resident
  split at resident
  · exact .inr resident
  · rcases List.mem_cons.mp resident with same | other
    · exact .inl same
    · exact .inr (mem_of_mem_others (List.mem_of_mem_take other))

end HfsPlus.RecencyCache
