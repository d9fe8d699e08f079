import Mathlib.Data.List.Basic
import Mathlib.Data.List.Nodup
import HfsPlus.Proofs.RecencyCache

/-!
# Histories of a cache

A cache is what it was asked so far makes it. A history lists the requests made of an
empty cache, the last one first, so that what was asked before a request is the rest of
the list behind it.

What each request does to the entries is said here once, by the case it falls into: a
look-up hits or misses, and storing a value finds room for it or drops the last entry.
-/

namespace HfsPlus.RecencyCache

variable {α : Type} {cache : RecencyCache α} {key other : Nat} {value : α}

/-- What can be asked of a cache. -/
inductive Request (α : Type) where
  | get (key : Nat)
  | set (key : Nat) (value : α)
  | remove (key : Nat)

/-- What a cache answers: the value that was found, the key that was dropped, or the
value that was taken out. -/
inductive Answer (α : Type) where
  | found (value? : Option α)
  | stored (dropped? : Option Nat)
  | removed (value? : Option α)

/-- One request, answered. -/
def serve (cache : RecencyCache α) : Request α → Answer α × RecencyCache α
  | .get key => (.found (cache.get key).1, (cache.get key).2)
  | .set key value => (.stored (cache.set key value).2, (cache.set key value).1)
  | .remove key => (.removed (cache.remove key).1, (cache.remove key).2)

/-- The cache after a history, the last request of which comes first. -/
def after (capacity : Nat) : List (Request α) → RecencyCache α
  | [] => empty capacity
  | request :: earlier => ((after capacity earlier).serve request).2

/-- The keys of the resident entries, the most recently used one first. -/
def keys (cache : RecencyCache α) : List Nat := cache.entries.map (·.1)

/-! ## What is resident -/

/-- The keys of the other entries are the other keys. -/
theorem keys_others : (cache.others key).map (·.1) = cache.keys.filter (· != key) := by
  simp only [others, keys, List.filter_map]
  rfl

/-- The other entries are those with other keys. -/
theorem mem_others {entry : Nat × α} :
    entry ∈ cache.others key ↔ entry ∈ cache.entries ∧ entry.1 ≠ key := by
  simp [others]

/-- A key is resident if something is found under it. -/
theorem mem_keys_iff : key ∈ cache.keys ↔ ∃ value, cache.peek? key = some value := by
  constructor
  · intro resident
    obtain ⟨entry, member, rfl⟩ := List.mem_map.mp resident
    have isKept : (cache.entries.find? fun kept => kept.1 == entry.1).isSome :=
      List.find?_isSome.mpr ⟨entry, member, beq_self_eq_true entry.1⟩
    obtain ⟨first, found⟩ := Option.isSome_iff_exists.mp isKept
    exact ⟨first.2, by rw [peek?, found, Option.map_some]⟩
  · rintro ⟨value, found⟩
    exact List.mem_map.mpr ⟨(key, value), mem_of_peek? found, rfl⟩

/-- Nothing is found exactly under the keys that are not resident. -/
theorem peek?_eq_none : cache.peek? key = none ↔ key ∉ cache.keys := by
  rw [mem_keys_iff]
  cases cache.peek? key <;> simp

/-- Under different keys, what is found under a key is what is kept under it. -/
theorem peek?_eq_some (distinct : cache.keys.Nodup) :
    cache.peek? key = some value ↔ (key, value) ∈ cache.entries := by
  constructor
  · exact mem_of_peek?
  · intro resident
    obtain ⟨found, looked⟩ := mem_keys_iff.mp (List.mem_map.mpr ⟨_, resident, rfl⟩)
    have same := List.inj_on_of_nodup_map distinct (mem_of_peek? looked) resident rfl
    rw [looked, (Prod.mk.inj same).2]

/-- Under the other keys there is at least one entry less, if a key is resident. -/
theorem length_others_lt (resident : key ∈ cache.keys) : (cache.others key).length < cache.size := by
  obtain ⟨entry, member, rfl⟩ := List.mem_map.mp resident
  exact List.length_filter_lt_length_iff_exists.mpr ⟨entry, member, by simp⟩

/-- If a key is not resident, all entries are under other keys. -/
theorem others_of_absent (absent : key ∉ cache.keys) : cache.others key = cache.entries := by
  rw [others, List.filter_eq_self]
  intro entry member
  have different : entry.1 ≠ key := fun same => absent (List.mem_map.mpr ⟨entry, member, same⟩)
  simpa using different

/-! ## What a request does -/

/-- A hit moves the entry to the front. -/
theorem get_hit (found : cache.peek? key = some value) :
    cache.get key = (some value,
      { cache with entries := (key, value) :: cache.others key, hits := cache.hits + 1 }) := by
  rw [get, found]

/-- A miss is counted, and changes nothing else. -/
theorem get_miss (absent : cache.peek? key = none) :
    cache.get key = (none, { cache with misses := cache.misses + 1 }) := by
  rw [get, absent]

/-- A look-up finds what a glance finds. -/
theorem get_fst : (cache.get key).1 = cache.peek? key := by
  cases found : cache.peek? key with
  | none => rw [get_miss found]
  | some value => rw [get_hit found]

/-- Nothing is stored in a cache of capacity zero. -/
theorem set_of_zero (nothing : cache.capacity = 0) : cache.set key value = (cache, none) := by
  rw [set, if_pos nothing]

/-- The entries after storing a value: the new one, and as many of the others as there is
room for. -/
theorem set_entries (positive : 0 < cache.capacity) :
    (cache.set key value).1 =
      { cache with entries := (key, value) :: (cache.others key).take (cache.capacity - 1) } := by
  rw [set, if_neg (Nat.ne_of_gt positive)]

/-- If there is room for it, storing a value drops nothing. -/
theorem set_fits (room : (cache.others key).length < cache.capacity) :
    cache.set key value =
      ({ cache with entries := (key, value) :: cache.others key }, none) := by
  have positive : cache.capacity ≠ 0 := by omega
  have all : (cache.others key).length ≤ cache.capacity - 1 := by omega
  simp only [set, if_neg positive, List.take_of_length_le all, List.drop_of_length_le all,
    List.head?_nil, Option.map_none]

/-- If there is not, the last entry is dropped. -/
theorem set_drops {rest : List (Nat × α)} {last : Nat × α}
    (full : cache.others key = rest ++ [last]) (exact : rest.length + 1 = cache.capacity) :
    cache.set key value = ({ cache with entries := (key, value) :: rest }, some last.1) := by
  have positive : cache.capacity ≠ 0 := by omega
  have front : cache.capacity - 1 = rest.length := by omega
  simp only [set, if_neg positive, full, front, List.take_left, List.drop_left, List.head?_cons,
    Option.map_some]

/-- A full cache without the key has a last entry. -/
theorem exists_last (absent : key ∉ cache.keys) (positive : 0 < cache.capacity)
    (full : cache.size = cache.capacity) :
    ∃ rest last, cache.others key = rest ++ [last] ∧ rest.length + 1 = cache.capacity := by
  obtain empty | ⟨rest, last, split⟩ := List.eq_nil_or_concat' cache.entries
  · have zero : cache.size = 0 := by rw [size, empty, List.length_nil]
    omega
  · refine ⟨rest, last, (others_of_absent absent).trans split, ?_⟩
    rw [← full, size, split, List.length_append, List.length_singleton]

/-- Storing a value keeps nothing, finds room, or drops the last entry for a new key. -/
theorem set_cases (bounded : cache.size ≤ cache.capacity) (key : Nat) (value : α) :
    cache.set key value = (cache, none) ∨
      cache.set key value =
        ({ cache with entries := (key, value) :: cache.others key }, none) ∨
      ∃ rest last, key ∉ cache.keys ∧ cache.entries = rest ++ [last] ∧
        cache.set key value = ({ cache with entries := (key, value) :: rest }, some last.1) := by
  by_cases nothing : cache.capacity = 0
  · exact .inl (set_of_zero nothing)
  · by_cases room : (cache.others key).length < cache.capacity
    · exact .inr (.inl (set_fits room))
    · have absent : key ∉ cache.keys := fun resident =>
        room (Nat.lt_of_lt_of_le (length_others_lt resident) bounded)
      have full : cache.size = cache.capacity := by
        rw [others_of_absent absent] at room
        exact Nat.le_antisymm bounded (Nat.le_of_not_lt room)
      obtain ⟨rest, last, split, upTo⟩ := exists_last absent (Nat.pos_of_ne_zero nothing) full
      exact .inr (.inr ⟨rest, last, absent, (others_of_absent absent).symm.trans split,
        set_drops split upTo⟩)

/-- Storing a value counts nothing. -/
theorem set_counts (key : Nat) (value : α) :
    (cache.set key value).1.hits = cache.hits ∧ (cache.set key value).1.misses = cache.misses := by
  by_cases nothing : cache.capacity = 0
  · rw [set_of_zero nothing]
    exact ⟨rfl, rfl⟩
  · rw [set_entries (Nat.pos_of_ne_zero nothing)]
    exact ⟨rfl, rfl⟩

/-- A request leaves the capacity. -/
theorem serve_capacity (request : Request α) :
    (cache.serve request).2.capacity = cache.capacity := by
  cases request with
  | get key =>
    cases found : cache.peek? key with
    | none => rw [serve, get_miss found]
    | some value => rw [serve, get_hit found]
  | set key value =>
    by_cases nothing : cache.capacity = 0
    · rw [serve, set_of_zero nothing]
    · rw [serve, set_entries (Nat.pos_of_ne_zero nothing)]
  | remove key => rfl

/-- A request does not fill a cache beyond its capacity. -/
theorem serve_size_le (bounded : cache.size ≤ cache.capacity) (request : Request α) :
    (cache.serve request).2.size ≤ cache.capacity := by
  cases request with
  | get key =>
    cases found : cache.peek? key with
    | none =>
      rw [serve, get_miss found]
      exact bounded
    | some value =>
      have fewer := length_others_lt (mem_keys_iff.mpr ⟨value, found⟩)
      rw [serve, get_hit found]
      simp only [size, List.length_cons] at fewer bounded ⊢
      omega
  | set key value =>
    by_cases nothing : cache.capacity = 0
    · rw [serve, set_of_zero nothing]
      exact bounded
    · rw [serve, set_entries (Nat.pos_of_ne_zero nothing)]
      simp only [size, List.length_cons, List.length_take]
      omega
  | remove key =>
    have fewer : (cache.others key).length ≤ cache.size := List.length_filter_le ..
    exact Nat.le_trans fewer bounded

/-! ## What a history does -/

/-- No history changes the capacity. -/
theorem after_capacity (capacity : Nat) (history : List (Request α)) :
    (after capacity history).capacity = capacity := by
  induction history with
  | nil => rfl
  | cons request earlier inductionHypothesis =>
    exact (serve_capacity request).trans inductionHypothesis

/-- A cache with room keeps having room. -/
theorem after_capacity_pos {capacity : Nat} (positive : 0 < capacity) (history : List (Request α)) :
    0 < (after capacity history).capacity := by
  rw [after_capacity]
  exact positive

/-- A cache never holds more than its capacity. -/
theorem after_size_le (capacity : Nat) (history : List (Request α)) :
    (after capacity history).size ≤ capacity := by
  induction history with
  | nil => exact Nat.zero_le capacity
  | cons request earlier inductionHypothesis =>
    have kept := after_capacity capacity earlier
    have bounded := serve_size_le (by rw [kept]; exact inductionHypothesis) request
    rw [kept] at bounded
    exact bounded

/-- So it holds at most what its capacity is now. -/
theorem after_bounded (capacity : Nat) (history : List (Request α)) :
    (after capacity history).size ≤ (after capacity history).capacity := by
  rw [after_capacity]
  exact after_size_le capacity history

end HfsPlus.RecencyCache
