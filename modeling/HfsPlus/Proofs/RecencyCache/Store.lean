import HfsPlus.Proofs.RecencyCache.History

/-!
# A cache that leaves its entries to a store

The entries of a cache need not be kept by the cache itself. Here they are left to a
store of bounded size that keeps them in order of use, of which no more is known than
what it promises: a look-up that finds something and a value that is stored both move
their entry to the front, a value that needs room pushes out the entry that was not used
for longest, and what is taken out is gone (`BoundedStore.Orderly`). The cache before it
counts the look-ups, and has no store at all if it may not keep anything.

Whatever the store is, the two answer every request as a recency cache of the same
capacity does, and are in the same state afterwards: the same entries are resident in the
same order, and as many look-ups were hits and misses (`Mirrors`).
-/

namespace HfsPlus

/-- The operations of a store that keeps at least one entry. Storing a value answers
with the entry that had to go for it: the one of its own key, or the one that was pushed
out. There is memory enough for what is stored. -/
structure BoundedStore (σ α : Type) where
  ofBound : Nat → σ
  get : σ → Nat → Option α × σ
  push : σ → Nat → α → Option (Nat × α) × σ
  pop : σ → Nat → Option α × σ
  count : σ → Nat
  bound : σ → Nat

namespace BoundedStore

variable {σ α : Type}

/-- The value under a key in a list of entries. -/
def valueIn (entries : List (Nat × α)) (key : Nat) : Option α :=
  (entries.find? fun entry => entry.1 == key).map (·.2)

/-- The entries of a list under other keys, in their order. -/
def besides (entries : List (Nat × α)) (key : Nat) : List (Nat × α) :=
  entries.filter fun entry => entry.1 != key

/-- An operation gives an answer and leaves certain entries; the bound stays. -/
def Leaves {β : Type} (store : BoundedStore σ α) (entries : σ → List (Nat × α)) (state : σ)
    (outcome : β × σ) (answer : β) (left : List (Nat × α)) : Prop :=
  outcome.1 = answer ∧ entries outcome.2 = left ∧ store.bound outcome.2 = store.bound state

/-- What a store that keeps its entries in order of use promises, in terms of its
entries, the most recently used one first. -/
structure Orderly (store : BoundedStore σ α) (entries : σ → List (Nat × α)) : Prop where
  fresh : ∀ bound, 0 < bound →
    entries (store.ofBound bound) = [] ∧ store.bound (store.ofBound bound) = bound
  counted : ∀ state, store.count state = (entries state).length
  get_promotes : ∀ state key value, valueIn (entries state) key = some value →
    store.Leaves entries state (store.get state key) (some value)
      ((key, value) :: besides (entries state) key)
  get_misses : ∀ state key, valueIn (entries state) key = none →
    store.Leaves entries state (store.get state key) none (entries state)
  push_replaces : ∀ state key value old, (entries state).length ≤ store.bound state →
    valueIn (entries state) key = some old →
      store.Leaves entries state (store.push state key value) (some (key, old))
        ((key, value) :: besides (entries state) key)
  push_adds : ∀ state key value, (entries state).length < store.bound state →
    valueIn (entries state) key = none →
      store.Leaves entries state (store.push state key value) none
        ((key, value) :: entries state)
  push_drops : ∀ state key value rest last, (entries state).length = store.bound state →
    valueIn (entries state) key = none → entries state = rest ++ [last] →
      store.Leaves entries state (store.push state key value) (some last) ((key, value) :: rest)
  pop_takes : ∀ state key,
    store.Leaves entries state (store.pop state key) (valueIn (entries state) key)
      (besides (entries state) key)

end BoundedStore

/-- A store with its look-ups counted. There is none if nothing may be kept. -/
structure CountedStore (σ : Type) where
  store? : Option σ
  hits : Nat
  misses : Nat

namespace CountedStore

variable {σ α : Type} (store : BoundedStore σ α)

/-- An empty store of a capacity. -/
def ofCapacity (capacity : Nat) : CountedStore σ :=
  ⟨if capacity = 0 then none else some (store.ofBound capacity), 0, 0⟩

/-- Look a key up in the store, if there is one, and count what came of it. -/
def get (cache : CountedStore σ) (key : Nat) : Option α × CountedStore σ :=
  let looked := match cache.store? with
    | some state => ((store.get state key).1, some (store.get state key).2)
    | none => (none, none)
  match looked.1 with
  | some value => (some value, { cache with store? := looked.2, hits := cache.hits + 1 })
  | none => (none, { cache with store? := looked.2, misses := cache.misses + 1 })

/-- What is reported of the entry that went for a value: its key, unless it is the key of
the value as well. -/
def reported (key : Nat) : Option (Nat × α) → Option Nat
  | some (gone, _) => if gone = key then none else some gone
  | none => none

/-- Leave a value to the store, if there is one, and report what went for it. -/
def set (cache : CountedStore σ) (key : Nat) (value : α) : CountedStore σ × Option Nat :=
  match cache.store? with
  | some state =>
    ({ cache with store? := some (store.push state key value).2 },
      reported key (store.push state key value).1)
  | none => (cache, none)

/-- Take the entry of a key out of the store, if there is one. -/
def remove (cache : CountedStore σ) (key : Nat) : Option α × CountedStore σ :=
  match cache.store? with
  | some state => ((store.pop state key).1, { cache with store? := some (store.pop state key).2 })
  | none => (none, cache)

/-- How many entries are resident. -/
def size (cache : CountedStore σ) : Nat :=
  match cache.store? with
  | some state => store.count state
  | none => 0

/-- How many entries may be resident. -/
def capacity (cache : CountedStore σ) : Nat :=
  match cache.store? with
  | some state => store.bound state
  | none => 0

/-- One request, answered. -/
def serve (cache : CountedStore σ) :
    RecencyCache.Request α → RecencyCache.Answer α × CountedStore σ
  | .get key => (.found (cache.get store key).1, (cache.get store key).2)
  | .set key value => (.stored (cache.set store key value).2, (cache.set store key value).1)
  | .remove key => (.removed (cache.remove store key).1, (cache.remove store key).2)

/-- The counted store after a history, the last request of which comes first. -/
def after (capacity : Nat) : List (RecencyCache.Request α) → CountedStore σ
  | [] => ofCapacity store capacity
  | request :: earlier => ((after capacity earlier).serve store request).2

end CountedStore

namespace RecencyCache

variable {σ α : Type}

/-- The entries behind a counted store are those of a cache, under the same bound. A cache
without a store behind it may not keep anything, and does not. -/
def Backed (store : BoundedStore σ α) (entries : σ → List (Nat × α)) (cache : RecencyCache α) :
    Option σ → Prop
  | some state => 0 < cache.capacity ∧ store.bound state = cache.capacity ∧
      entries state = cache.entries
  | none => cache.capacity = 0 ∧ cache.entries = []

/-- A counted store is in the state of a cache. -/
structure Mirrors (store : BoundedStore σ α) (entries : σ → List (Nat × α))
    (counted : CountedStore σ) (cache : RecencyCache α) : Prop where
  backed : cache.Backed store entries counted.store?
  hits : counted.hits = cache.hits
  misses : counted.misses = cache.misses

variable {store : BoundedStore σ α} {entries : σ → List (Nat × α)} {counted : CountedStore σ}
variable {cache : RecencyCache α}

/-- Nothing is resident in a cache without a store. -/
theorem Backed.absent (backed : cache.Backed store entries none) (key : Nat) :
    cache.peek? key = none := by
  obtain ⟨nothing, empty⟩ := backed
  rw [peek?, empty, List.find?_nil, Option.map_none]

/-- What the store has under a key is what the cache has. -/
theorem Backed.valueIn {state : σ} (backed : cache.Backed store entries (some state)) (key : Nat) :
    BoundedStore.valueIn (entries state) key = cache.peek? key := by
  rw [backed.2.2]
  rfl

/-- What the store has besides a key is what the cache has. -/
theorem Backed.besides {state : σ} (backed : cache.Backed store entries (some state)) (key : Nat) :
    BoundedStore.besides (entries state) key = cache.others key := by
  rw [backed.2.2]
  rfl

/-- A counted store is as large as the cache that it mirrors. -/
theorem Mirrors.size_same (orderly : store.Orderly entries)
    (mirrors : Mirrors store entries counted cache) :
    counted.size store = cache.size ∧ counted.capacity store = cache.capacity := by
  have backed := mirrors.backed
  cases kept : counted.store? with
  | none =>
    rw [kept] at backed
    obtain ⟨nothing, empty⟩ := backed
    simp only [CountedStore.size, CountedStore.capacity, kept, size, empty, nothing,
      List.length_nil, and_self]
  | some state =>
    rw [kept] at backed
    obtain ⟨positive, bound, same⟩ := backed
    simp only [CountedStore.size, CountedStore.capacity, kept, size, orderly.counted, same, bound,
      and_self]

/-- A look-up finds the same, and leaves the same state. -/
theorem Mirrors.get_same (orderly : store.Orderly entries)
    (mirrors : Mirrors store entries counted cache) (key : Nat) :
    (counted.get store key).1 = (cache.get key).1 ∧
      Mirrors store entries (counted.get store key).2 (cache.get key).2 := by
  have backed := mirrors.backed
  cases kept : counted.store? with
  | none =>
    rw [kept] at backed
    rw [get_miss (backed.absent key)]
    simp only [CountedStore.get, kept]
    exact ⟨trivial, backed, mirrors.hits, congrArg (· + 1) mirrors.misses⟩
  | some state =>
    rw [kept] at backed
    have values := backed.valueIn key
    have besides := backed.besides key
    obtain ⟨positive, bound, same⟩ := backed
    cases found : cache.peek? key with
    | none =>
      obtain ⟨answer, left, still⟩ := orderly.get_misses state key (values.trans found)
      rw [get_miss found]
      simp only [CountedStore.get, kept, answer]
      exact ⟨trivial, ⟨positive, still.trans bound, left.trans same⟩, mirrors.hits,
        congrArg (· + 1) mirrors.misses⟩
    | some value =>
      obtain ⟨answer, left, still⟩ := orderly.get_promotes state key value (values.trans found)
      rw [besides] at left
      rw [get_hit found]
      simp only [CountedStore.get, kept, answer]
      exact ⟨trivial, ⟨positive, still.trans bound, left⟩, congrArg (· + 1) mirrors.hits,
        mirrors.misses⟩

/-- Leaving a value to the store of a cache reports what storing it in the cache reports, and
leaves the same entries. If the key has one, that goes for the new one, and no other has to. -/
theorem Backed.push (orderly : store.Orderly entries) {state : σ}
    (backed : cache.Backed store entries (some state)) (bounded : cache.size ≤ cache.capacity)
    (key : Nat) (value : α) :
    CountedStore.reported key (store.push state key value).1 = (cache.set key value).2 ∧
      (cache.set key value).1.Backed store entries (some (store.push state key value).2) := by
  have values := backed.valueIn key
  have besides := backed.besides key
  obtain ⟨positive, bound, same⟩ := backed
  have within : (entries state).length ≤ store.bound state := by
    rw [same, bound]
    exact bounded
  cases found : cache.peek? key with
  | some old =>
    obtain ⟨answer, left, still⟩ :=
      orderly.push_replaces state key value old within (values.trans found)
    have room := length_others_lt (mem_keys_iff.mpr ⟨old, found⟩)
    rw [besides] at left
    rw [set_fits (Nat.lt_of_lt_of_le room bounded), answer]
    exact ⟨if_pos rfl, positive, still.trans bound, left⟩
  | none =>
    have missing := values.trans found
    have absent := peek?_eq_none.mp found
    have others := others_of_absent absent
    obtain room | full := Nat.lt_or_eq_of_le within
    · obtain ⟨answer, left, still⟩ := orderly.push_adds state key value room missing
      have fits : (cache.others key).length < cache.capacity := by
        rw [others, ← same, ← bound]
        exact room
      rw [set_fits fits, answer, others, ← same]
      exact ⟨rfl, positive, still.trans bound, left⟩
    · have filled : cache.size = cache.capacity := by
        rw [size, ← same, full, bound]
      obtain ⟨rest, last, split, upTo⟩ := exists_last absent positive filled
      obtain ⟨answer, left, still⟩ := orderly.push_drops state key value rest last full missing
        (same.trans (others.symm.trans split))
      have different : last.1 ≠ key := by
        have member : last ∈ cache.others key := by simp [split]
        exact (mem_others.mp member).2
      rw [set_drops split upTo, answer]
      exact ⟨if_neg different, positive, still.trans bound, left⟩

/-- Storing a value reports the same, and leaves the same state. -/
theorem Mirrors.set_same (orderly : store.Orderly entries)
    (mirrors : Mirrors store entries counted cache) (bounded : cache.size ≤ cache.capacity)
    (key : Nat) (value : α) :
    (counted.set store key value).2 = (cache.set key value).2 ∧
      Mirrors store entries (counted.set store key value).1 (cache.set key value).1 := by
  have backed := mirrors.backed
  cases kept : counted.store? with
  | none =>
    rw [kept] at backed
    rw [set_of_zero backed.1]
    simp only [CountedStore.set, kept]
    exact ⟨trivial, mirrors⟩
  | some state =>
    rw [kept] at backed
    obtain ⟨report, pushed⟩ := backed.push orderly bounded key value
    obtain ⟨hits, misses⟩ := cache.set_counts key value
    simp only [CountedStore.set, kept]
    exact ⟨report, pushed, mirrors.hits.trans hits.symm, mirrors.misses.trans misses.symm⟩

/-- Taking an entry out gives the same, and leaves the same state. -/
theorem Mirrors.remove_same (orderly : store.Orderly entries)
    (mirrors : Mirrors store entries counted cache) (key : Nat) :
    (counted.remove store key).1 = (cache.remove key).1 ∧
      Mirrors store entries (counted.remove store key).2 (cache.remove key).2 := by
  have backed := mirrors.backed
  cases kept : counted.store? with
  | none =>
    rw [kept] at backed
    have nothing : cache.others key = [] := by rw [others, backed.2, List.filter_nil]
    simp only [CountedStore.remove, kept, RecencyCache.remove]
    refine ⟨(backed.absent key).symm, ?_, mirrors.hits, mirrors.misses⟩
    rw [kept]
    exact ⟨backed.1, nothing⟩
  | some state =>
    rw [kept] at backed
    have values := backed.valueIn key
    have besides := backed.besides key
    obtain ⟨positive, bound, same⟩ := backed
    obtain ⟨answer, left, still⟩ := orderly.pop_takes state key
    simp only [CountedStore.remove, kept, RecencyCache.remove]
    exact ⟨answer.trans values, ⟨positive, still.trans bound, left.trans besides⟩, mirrors.hits,
      mirrors.misses⟩

/-- So every request is answered the same, and leaves the same state. -/
theorem Mirrors.serve_same (orderly : store.Orderly entries)
    (mirrors : Mirrors store entries counted cache) (bounded : cache.size ≤ cache.capacity)
    (request : Request α) :
    (counted.serve store request).1 = (cache.serve request).1 ∧
      Mirrors store entries (counted.serve store request).2 (cache.serve request).2 := by
  cases request with
  | get key =>
    obtain ⟨answer, same⟩ := mirrors.get_same orderly key
    exact ⟨congrArg Answer.found answer, same⟩
  | set key value =>
    obtain ⟨answer, same⟩ := mirrors.set_same orderly bounded key value
    exact ⟨congrArg Answer.stored answer, same⟩
  | remove key =>
    obtain ⟨answer, same⟩ := mirrors.remove_same orderly key
    exact ⟨congrArg Answer.removed answer, same⟩

/-- A fresh counted store is in the state of an empty cache. -/
theorem mirrors_empty (orderly : store.Orderly entries) (capacity : Nat) :
    Mirrors store entries (.ofCapacity store capacity) (empty capacity) := by
  refine ⟨?_, rfl, rfl⟩
  by_cases nothing : capacity = 0
  · rw [CountedStore.ofCapacity, if_pos nothing]
    exact ⟨nothing, rfl⟩
  · have positive := Nat.pos_of_ne_zero nothing
    obtain ⟨unfilled, bound⟩ := orderly.fresh capacity positive
    rw [CountedStore.ofCapacity, if_neg nothing]
    exact ⟨positive, bound, unfilled⟩

/-- After every history a counted store is in the state of the cache. -/
theorem mirrors_after (orderly : store.Orderly entries) (capacity : Nat)
    (history : List (Request α)) :
    Mirrors store entries (CountedStore.after store capacity history) (after capacity history) := by
  induction history with
  | nil => exact mirrors_empty orderly capacity
  | cons request earlier inductionHypothesis =>
    exact (inductionHypothesis.serve_same orderly (after_bounded capacity earlier) request).2

/-- So whatever it is asked next, it answers as the cache does. -/
theorem answers_after (orderly : store.Orderly entries) (capacity : Nat)
    (history : List (Request α)) (request : Request α) :
    ((CountedStore.after store capacity history).serve store request).1 =
      ((after capacity history).serve request).1 :=
  ((mirrors_after orderly capacity history).serve_same orderly (after_bounded capacity history)
    request).1

/-! ## A cache as the store of a cache -/

/-- A cache itself is a store that keeps its entries in order of use. -/
def asStore : BoundedStore (RecencyCache α) α where
  ofBound := empty
  get := RecencyCache.get
  push cache key value :=
    (match cache.peek? key with
      | some old => some (key, old)
      | none => (cache.entries.drop (cache.capacity - 1)).head?,
      (cache.set key value).1)
  pop := RecencyCache.remove
  count := size
  bound := capacity

/-- It keeps what such a store promises, whatever its entries are. -/
theorem asStore_orderly : (asStore : BoundedStore (RecencyCache α) α).Orderly (·.entries) where
  fresh bound positive := ⟨rfl, rfl⟩
  counted cache := rfl
  get_promotes cache key value found := by
    have moved : cache.get key = _ := get_hit found
    simp only [BoundedStore.Leaves, asStore, moved]
    exact ⟨trivial, rfl, trivial⟩
  get_misses cache key absent := by
    have counted : cache.get key = _ := get_miss absent
    simp only [BoundedStore.Leaves, asStore, counted, and_self]
  push_replaces cache key value old within found := by
    have looked : cache.peek? key = some old := found
    have room := length_others_lt (mem_keys_iff.mpr ⟨old, looked⟩)
    simp only [BoundedStore.Leaves, asStore, looked, set_fits (Nat.lt_of_lt_of_le room within)]
    exact ⟨trivial, rfl, trivial⟩
  push_adds cache key value room missing := by
    have looked : cache.peek? key = none := missing
    have others := others_of_absent (peek?_eq_none.mp looked)
    have beyond : cache.entries.length ≤ cache.capacity - 1 := Nat.le_sub_one_of_lt room
    have fits : (cache.others key).length < cache.capacity := by
      rw [others]
      exact room
    have stored : cache.set key value = _ := set_fits fits
    simp only [BoundedStore.Leaves, asStore, looked, List.drop_of_length_le beyond, stored, others,
      List.head?_nil, and_self]
  push_drops cache key value rest last full missing split := by
    have looked : cache.peek? key = none := missing
    have others := others_of_absent (peek?_eq_none.mp looked)
    have upTo : rest.length + 1 = cache.capacity := by
      rw [split, List.length_append, List.length_singleton] at full
      exact full
    have front : cache.capacity - 1 = rest.length := by omega
    simp only [BoundedStore.Leaves, asStore, looked, split, front, List.drop_left,
      set_drops (others.trans split) upTo, List.head?_cons, and_self]
  pop_takes cache key := ⟨rfl, rfl, rfl⟩

end RecencyCache

end HfsPlus
