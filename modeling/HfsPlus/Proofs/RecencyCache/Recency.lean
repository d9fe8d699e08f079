import Mathlib.Data.Finset.Card
import Mathlib.Data.List.Dedup
import HfsPlus.Proofs.RecencyCache.Store

/-!
# What is resident is what was used most recently

A cache is touched by a value that is stored and by a look-up that hits. What was
touched, the last first and each key only where it was touched last, is the order of
recency (`recency`). The keys of a cache are always in this order, with gaps only where
something was taken out; as long as nothing is, they are the first keys of it, as many as
the capacity admits. How far down a key stands there is how many other keys were touched
since it was, and so decides whether it is still resident.
-/

namespace HfsPlus.RecencyCache

variable {α : Type} {key : Nat} {value : α}

/-! ## The order of recency -/

/-- Keys in the order in which they occur first, each of them once. -/
def recency : List Nat → List Nat
  | [] => []
  | key :: earlier => key :: (recency earlier).filter (· != key)

/-- Every key that was touched is among them. -/
theorem mem_recency {touched : List Nat} : key ∈ recency touched ↔ key ∈ touched := by
  induction touched with
  | nil => rfl
  | cons last earlier inductionHypothesis =>
    simp only [recency, List.mem_cons, List.mem_filter, inductionHypothesis, bne_iff_ne]
    constructor
    · rintro (same | ⟨before, different⟩)
      · exact .inl same
      · exact .inr before
    · rintro (same | before)
      · exact .inl same
      · by_cases same : key = last
        · exact .inl same
        · exact .inr ⟨before, same⟩

/-- No key is among them twice. -/
theorem recency_nodup (touched : List Nat) : (recency touched).Nodup := by
  induction touched with
  | nil => exact List.nodup_nil
  | cons last earlier inductionHypothesis =>
    refine List.nodup_cons.mpr ⟨?_, inductionHypothesis.filter _⟩
    intro again
    simpa using (List.mem_filter.mp again).2

/-- What is more recent than a key is the order of recency of what was touched since. Other keys are
filtered out of it, but never the key itself, so its place does not move. -/
theorem takeWhile_recency (key : Nat) (touched : List Nat) :
    (recency touched).takeWhile (· != key) = recency (touched.takeWhile (· != key)) := by
  induction touched with
  | nil => rfl
  | cons last earlier inductionHypothesis =>
    by_cases same : last = key
    · subst same
      simp [recency]
    · have different : (last != key) = true := bne_iff_ne.mpr same
      have reaches : (fun other => !(other != last) || other != key) = (· != key) := by
        funext other
        by_cases again : other = last
        · simp [again, different]
        · simp [again]
      simp only [recency, List.takeWhile_cons, different, ↓reduceIte, List.takeWhile_filter,
        reaches, inductionHypothesis]

/-- There are as many keys in the order of recency as different ones were touched. -/
theorem length_recency (touched : List Nat) : (recency touched).length = touched.toFinset.card := by
  have same : (recency touched).toFinset = touched.toFinset := by
    ext key
    rw [List.mem_toFinset, List.mem_toFinset, mem_recency]
  rw [← same, List.toFinset_card_of_nodup (recency_nodup touched)]

/-- A member is among the first entries of a list exactly if fewer entries precede it. -/
theorem mem_take_iff {keys : List Nat} (count : Nat) (member : key ∈ keys) :
    key ∈ keys.take count ↔ (keys.takeWhile (· != key)).length < count := by
  induction keys generalizing count with
  | nil => cases member
  | cons first rest inductionHypothesis =>
    cases count with
    | zero => simp
    | succ count =>
      by_cases same : first = key
      · simp [same]
      · have later : key ∈ rest := (List.mem_cons.mp member).resolve_left (Ne.symm same)
        simp [same, Ne.symm same, inductionHypothesis count later]

/-- So a key is among the most recent ones if it was touched, and fewer others since. -/
theorem mem_take_recency (capacity : Nat) (touched : List Nat) :
    key ∈ (recency touched).take capacity ↔
      key ∈ touched ∧ (touched.takeWhile (· != key)).toFinset.card < capacity := by
  rw [← length_recency, ← takeWhile_recency]
  constructor
  · intro recent
    have member := List.mem_of_mem_take recent
    exact ⟨mem_recency.mp member, (mem_take_iff capacity member).mp recent⟩
  · rintro ⟨member, few⟩
    exact (mem_take_iff capacity (mem_recency.mpr member)).mpr few

/-- Among the first keys and without one of them, there is still one less than before that
is the same as among all keys. -/
theorem take_filter_take {keys : List Nat} (distinct : keys.Nodup) (key count : Nat) :
    ((keys.take (count + 1)).filter (· != key)).take count =
      (keys.filter (· != key)).take count := by
  by_cases all : keys.length ≤ count + 1
  · rw [List.take_of_length_le all]
  · have reached : (keys.take (count + 1)).length = count + 1 :=
      List.length_take_of_le (Nat.le_of_not_le all)
    have firstDistinct : (keys.take (count + 1)).Nodup := distinct.sublist (List.take_sublist _ _)
    have enough : count ≤ ((keys.take (count + 1)).filter (· != key)).length := by
      rw [← firstDistinct.erase_eq_filter]
      have atMostOne := List.le_length_erase (a := key) (l := keys.take (count + 1))
      omega
    conv_rhs => rw [← List.take_append_drop (count + 1) keys, List.filter_append]
    rw [List.take_append_of_le_length enough]

/-- If keys stand before another in a part of a list, they stand before it in the list. -/
theorem mem_takeWhile_of_sublist {before keys : List Nat} (distinct : keys.Nodup)
    (ordered : (before ++ [key]).Sublist keys) {other : Nat} (earlier : other ∈ before) :
    other ∈ keys.takeWhile (· != key) := by
  obtain ⟨front, back, rfl, ahead, behind⟩ := List.append_sublist_iff.mp ordered
  have absent : ∀ kept ∈ front, (kept != key) = true := by
    intro kept member
    have apart := (List.nodup_append.mp distinct).2.2 kept member key
      (List.singleton_sublist.mp behind)
    exact bne_iff_ne.mpr apart
  rw [List.takeWhile_append_of_pos absent]
  exact List.mem_append_left _ (ahead.subset earlier)

/-! ## What a history touches and stores -/

/-- The keys that a history touched, the last first: a value stored under a key touches it,
and so does a look-up that hits. -/
def touched (capacity : Nat) : List (Request α) → List Nat
  | [] => []
  | .get key :: earlier =>
    match (after capacity earlier).peek? key with
    | some _ => key :: touched capacity earlier
    | none => touched capacity earlier
  | .set key _ :: earlier => key :: touched capacity earlier
  | .remove _ :: earlier => touched capacity earlier

/-- The value that was stored last under a key. -/
def lastStored (key : Nat) : List (Request α) → Option α
  | [] => none
  | .set other value :: earlier => if other = key then some value else lastStored key earlier
  | .get _ :: earlier => lastStored key earlier
  | .remove _ :: earlier => lastStored key earlier

/-- Is a request a look-up? -/
def Request.isGet : Request α → Bool
  | .get _ => true
  | .set _ _ => false
  | .remove _ => false

/-- A value that was stored was stored by a request. -/
theorem mem_of_lastStored {history : List (Request α)}
    (stored : lastStored key history = some value) : .set key value ∈ history := by
  induction history with
  | nil => cases stored
  | cons request earlier inductionHypothesis =>
    cases request with
    | set other newer =>
      by_cases same : other = key
      · simp only [lastStored, same, ↓reduceIte, Option.some.injEq] at stored
        subst same stored
        exact List.mem_cons_self
      · simp only [lastStored, same, ↓reduceIte] at stored
        exact List.mem_cons_of_mem _ (inductionHypothesis stored)
    | get other => exact List.mem_cons_of_mem _ (inductionHypothesis stored)
    | remove other => exact List.mem_cons_of_mem _ (inductionHypothesis stored)

/-- Nothing is resident in a cache of capacity zero. -/
theorem entries_after_zero (history : List (Request α)) : (after 0 history).entries = [] :=
  List.eq_nil_of_length_eq_zero (Nat.le_zero.mp (after_size_le 0 history))

/-- Every resident entry has the value that was stored last under its key. -/
theorem entries_latest (capacity : Nat) (history : List (Request α)) :
    ∀ entry ∈ (after capacity history).entries, lastStored entry.1 history = some entry.2 := by
  induction history with
  | nil => nofun
  | cons request earlier inductionHypothesis =>
    intro entry resident
    cases request with
    | get key => exact inductionHypothesis entry (mem_of_mem_get resident)
    | set key value =>
      by_cases nothing : capacity = 0
      · subst nothing
        rw [entries_after_zero] at resident
        cases resident
      · have positive := after_capacity_pos (Nat.pos_of_ne_zero nothing) earlier
        simp only [after, serve, set_entries positive] at resident
        rcases List.mem_cons.mp resident with rfl | other
        · exact if_pos rfl
        · obtain ⟨before, different⟩ := mem_others.mp (List.mem_of_mem_take other)
          exact (if_neg (Ne.symm different)).trans (inductionHypothesis entry before)
    | remove key => exact inductionHypothesis entry (mem_of_mem_others resident)

/-- Every look-up is counted once. -/
theorem counts_after (capacity : Nat) (history : List (Request α)) :
    (after capacity history).hits + (after capacity history).misses =
      history.countP Request.isGet := by
  induction history with
  | nil => rfl
  | cons request earlier inductionHypothesis =>
    cases request with
    | get key =>
      have counted : (Request.get key :: earlier : List (Request α)).countP Request.isGet =
          earlier.countP Request.isGet + 1 := List.countP_cons_of_pos rfl
      cases found : (after capacity earlier).peek? key with
      | none =>
        simp only [after, serve, get_miss found]
        omega
      | some value =>
        simp only [after, serve, get_hit found]
        omega
    | set key value =>
      obtain ⟨hits, misses⟩ := (after capacity earlier).set_counts key value
      simp only [after, serve, hits, misses]
      exact inductionHypothesis
    | remove key => exact inductionHypothesis

/-- A key was touched if a value was ever stored under it: a look-up only touches what is
resident. -/
theorem mem_touched_iff (capacity : Nat) (history : List (Request α)) :
    key ∈ touched capacity history ↔ ∃ value, .set key value ∈ history := by
  induction history with
  | nil => simp [touched]
  | cons request earlier inductionHypothesis =>
    cases request with
    | get other =>
      have same : (∃ value, .set key value ∈ Request.get other :: earlier) ↔
          ∃ value, .set key value ∈ earlier := by simp
      rw [same, ← inductionHypothesis]
      cases found : (after capacity earlier).peek? other with
      | none => simp only [touched, found]
      | some value =>
        have stored := mem_of_lastStored (entries_latest capacity earlier _ (mem_of_peek? found))
        simp only [touched, found, List.mem_cons, or_iff_right_iff_imp]
        rintro rfl
        exact inductionHypothesis.mpr ⟨value, stored⟩
    | set other newer =>
      simp only [touched, List.mem_cons, inductionHypothesis, Request.set.injEq, exists_or,
        exists_and_left, exists_eq, and_true]
    | remove other =>
      have same : (∃ value, .set key value ∈ Request.remove other :: earlier) ↔
          ∃ value, .set key value ∈ earlier := by simp
      rw [same, ← inductionHypothesis, touched]

/-! ## The keys of a cache -/

/-- A hit makes its key the most recent one. -/
theorem keys_of_hit {cache : RecencyCache α} (found : cache.peek? key = some value) :
    (cache.get key).2.keys = key :: cache.keys.filter (· != key) := by
  rw [get_hit found, ← keys_others]
  rfl

/-- A stored value makes its key the most recent one, before as many as there is room for. -/
theorem keys_of_set {cache : RecencyCache α} (positive : 0 < cache.capacity) :
    (cache.set key value).1.keys =
      key :: (cache.keys.filter (· != key)).take (cache.capacity - 1) := by
  rw [set_entries positive, ← keys_others, ← List.map_take]
  rfl

/-- The keys of a cache are in the order of recency, and there are gaps in it only. -/
theorem keys_sublist (capacity : Nat) (history : List (Request α)) :
    (after capacity history).keys.Sublist (recency (touched capacity history)) := by
  induction history with
  | nil => exact List.Sublist.refl []
  | cons request earlier inductionHypothesis =>
    cases request with
    | get key =>
      cases found : (after capacity earlier).peek? key with
      | none =>
        simp only [touched, after, serve, found, get_miss found]
        exact inductionHypothesis
      | some value =>
        simp only [touched, after, serve, found, keys_of_hit found, recency]
        exact (inductionHypothesis.filter _).cons_cons key
    | set key value =>
      by_cases nothing : capacity = 0
      · subst nothing
        rw [keys, entries_after_zero]
        exact List.nil_sublist _
      · have positive := after_capacity_pos (Nat.pos_of_ne_zero nothing) earlier
        simp only [touched, after, serve, keys_of_set positive, recency]
        exact ((List.take_sublist _ _).trans (inductionHypothesis.filter _)).cons_cons key
    | remove key =>
      have fewer : ((after capacity earlier).remove key).2.keys =
          (after capacity earlier).keys.filter (· != key) := keys_others
      simp only [touched, after, serve, fewer]
      exact List.filter_sublist.trans inductionHypothesis

/-- They are different. -/
theorem keys_nodup (capacity : Nat) (history : List (Request α)) :
    (after capacity history).keys.Nodup :=
  (recency_nodup _).sublist (keys_sublist capacity history)

/-- As long as nothing is taken out there are no gaps: the keys of a cache are the most
recent ones. -/
theorem keys_eq_take (capacity : Nat) (history : List (Request α))
    (kept : ∀ key, .remove key ∉ history) :
    (after capacity history).keys = (recency (touched capacity history)).take capacity := by
  cases capacity with
  | zero => rw [keys, entries_after_zero, List.map_nil, List.take_zero]
  | succ room =>
    induction history with
    | nil => rfl
    | cons request earlier inductionHypothesis =>
      have same := inductionHypothesis fun key removed => kept key (List.mem_cons_of_mem _ removed)
      have distinct := recency_nodup (touched (room + 1) earlier)
      cases request with
      | get key =>
        cases found : (after (room + 1) earlier).peek? key with
        | none =>
          simp only [touched, after, serve, found, get_miss found]
          exact same
        | some value =>
          have fewer : ((after (room + 1) earlier).keys.filter (· != key)).length ≤ room := by
            have less := length_others_lt (mem_keys_iff.mpr ⟨value, found⟩)
            have bounded := after_size_le (room + 1) earlier
            rw [← keys_others, List.length_map]
            omega
          simp only [touched, after, serve, found, keys_of_hit found, recency, List.take_succ_cons]
          rw [← take_filter_take distinct, ← same, List.take_of_length_le fewer]
      | set key value =>
        have positive : 0 < (after (room + 1) earlier).capacity :=
          after_capacity_pos (Nat.succ_pos room) earlier
        simp only [touched, after, serve, keys_of_set positive, recency, List.take_succ_cons]
        rw [← take_filter_take distinct, ← same, after_capacity, Nat.add_sub_cancel]
      | remove key => exact absurd List.mem_cons_self (kept key)

/-! ## What storing a value drops -/

variable {cache : RecencyCache α}

/-- What is dropped is one other key. Every other key that was resident stood before it, and
it is resident no longer. -/
theorem dropped_last (distinct : cache.keys.Nodup) (bounded : cache.size ≤ cache.capacity)
    {victim : Nat} (dropped : (cache.set key value).2 = some victim) :
    victim ≠ key ∧ victim ∉ (cache.set key value).1.keys ∧
      ∃ before, cache.keys = before ++ [victim] := by
  obtain same | fits | ⟨rest, last, absent, split, drops⟩ := cache.set_cases bounded key value
  · rw [same] at dropped
    cases dropped
  · rw [fits] at dropped
    cases dropped
  · rw [drops, Option.some.injEq] at dropped
    subst dropped
    have order : cache.keys = rest.map (·.1) ++ [last.1] := by
      rw [keys, split, List.map_append, List.map_singleton]
    have different : last.1 ≠ key := by
      intro same
      apply absent
      rw [order, ← same]
      exact List.mem_append_right _ List.mem_cons_self
    refine ⟨different, ?_, _, order⟩
    rw [drops]
    intro resident
    rw [order] at distinct
    rcases List.mem_cons.mp resident with same | again
    · exact different same
    · exact (List.nodup_append.mp distinct).2.2 _ again _ List.mem_cons_self rfl

/-- Every other key that is not dropped keeps its value. -/
theorem peek?_set_of_ne (distinct : cache.keys.Nodup) (bounded : cache.size ≤ cache.capacity)
    (distinctAfter : (cache.set key value).1.keys.Nodup) {other : Nat} (different : other ≠ key)
    (spared : (cache.set key value).2 ≠ some other) :
    (cache.set key value).1.peek? other = cache.peek? other := by
  ext kept
  rw [peek?_eq_some distinctAfter, peek?_eq_some distinct]
  obtain same | fits | ⟨rest, last, absent, split, drops⟩ := cache.set_cases bounded key value
  · rw [same]
  · simp [fits, mem_others, different]
  · rw [drops] at spared ⊢
    have notLast : (other, kept) ≠ last := fun same => spared (same ▸ rfl)
    simp [split, different, notLast]

/-- Storing a value under a resident key drops nothing. -/
theorem set_resident (bounded : cache.size ≤ cache.capacity) (resident : key ∈ cache.keys) :
    (cache.set key value).2 = none := by
  rw [set_fits (Nat.lt_of_lt_of_le (length_others_lt resident) bounded)]

/-- After any history, every other resident key was touched since the one that is dropped. -/
theorem touched_since_dropped (capacity : Nat) (history : List (Request α)) {victim other : Nat}
    (dropped : ((after capacity history).set key value).2 = some victim)
    (resident : other ∈ (after capacity history).keys) (different : other ≠ victim) :
    other ∈ (touched capacity history).takeWhile (· != victim) := by
  obtain ⟨_, _, before, order⟩ :=
    dropped_last (keys_nodup capacity history) (after_bounded capacity history) dropped
  have ordered := keys_sublist capacity history
  rw [order] at ordered resident
  have earlier : other ∈ before :=
    (List.mem_append.mp resident).resolve_right (different ∘ List.mem_singleton.mp)
  have ahead := mem_takeWhile_of_sublist (recency_nodup _) ordered earlier
  rw [takeWhile_recency] at ahead
  exact mem_recency.mp ahead

/-- **The cache is exact.** Whatever it was asked, a store that keeps its entries in order of use,
with its look-ups counted, is in the state of the cache and answers as it does. No more entries are
resident than the capacity admits, under different keys; what is found is what was stored last under
the key; and every look-up is a hit or a miss. A cache of capacity zero finds nothing. If nothing was
taken out, a key is resident exactly if something was stored under it, and fewer other keys than
the capacity were touched since the key was. Storing a value under a resident key drops nothing;
what storing a value does drop is the one resident key that was touched longest ago, and every other
key keeps its value. What is taken out is what would have been found, and the rest stays in its
order. -/
theorem histories_exact {σ : Type} (store : BoundedStore σ α) (entries : σ → List (Nat × α))
    (orderly : store.Orderly entries) (capacity : Nat) (history : List (Request α)) :
    let cache := after capacity history
    let counted := CountedStore.after store capacity history
    (Mirrors store entries counted cache ∧ counted.size store = cache.size ∧
        counted.capacity store = capacity ∧
        ∀ request, (counted.serve store request).1 = (cache.serve request).1) ∧
      (cache.size ≤ capacity ∧ cache.keys.Nodup) ∧
      (∀ key value, (cache.get key).1 = some value → lastStored key history = some value) ∧
      cache.hits + cache.misses = history.countP Request.isGet ∧
      (capacity = 0 → ∀ key, (cache.get key).1 = none) ∧
      ((∀ key, .remove key ∉ history) → ∀ key,
        key ∈ cache.keys ↔ (∃ value, .set key value ∈ history) ∧
          ((touched capacity history).takeWhile (· != key)).toFinset.card < capacity) ∧
      (∀ key value, key ∈ cache.keys → (cache.set key value).2 = none) ∧
      (∀ key value victim, (cache.set key value).2 = some victim →
        victim ≠ key ∧ victim ∈ cache.keys ∧ victim ∉ (cache.set key value).1.keys ∧
          ∀ other ∈ cache.keys, other ≠ victim →
            other ∈ (touched capacity history).takeWhile (· != victim)) ∧
      (∀ key value other, other ≠ key → (cache.set key value).2 ≠ some other →
        (cache.set key value).1.peek? other = cache.peek? other) ∧
      (∀ key, (cache.remove key).1 = (cache.get key).1 ∧ key ∉ (cache.remove key).2.keys ∧
        (cache.remove key).2.entries = cache.entries.filter (·.1 != key)) := by
  intro cache counted
  have mirrors := mirrors_after orderly capacity history
  have distinct := keys_nodup capacity history
  have bounded := after_bounded capacity history
  obtain ⟨sameSize, sameCapacity⟩ := mirrors.size_same orderly
  rw [after_capacity] at sameCapacity
  refine ⟨⟨mirrors, sameSize, sameCapacity, answers_after orderly capacity history⟩,
    ⟨after_size_le capacity history, distinct⟩, ?_, counts_after capacity history, ?_, ?_,
    fun key value resident => set_resident bounded resident, ?_, ?_, ?_⟩
  · intro key value found
    rw [get_fst] at found
    exact entries_latest capacity history _ (mem_of_peek? found)
  · rintro nothing key
    subst nothing
    rw [get_fst, peek?_eq_none, keys, entries_after_zero]
    exact List.not_mem_nil
  · intro kept key
    rw [keys_eq_take capacity history kept, mem_take_recency, mem_touched_iff]
  · intro key value victim dropped
    obtain ⟨different, gone, before, order⟩ := dropped_last distinct bounded dropped
    refine ⟨different, ?_, gone, fun other => touched_since_dropped capacity history dropped⟩
    rw [order]
    exact List.mem_append_right _ List.mem_cons_self
  · intro key value other
    exact peek?_set_of_ne distinct bounded (keys_nodup capacity (.set key value :: history))
  · intro key
    refine ⟨get_fst.symm, ?_, rfl⟩
    intro resident
    obtain ⟨entry, member, same⟩ := List.mem_map.mp resident
    exact (mem_others.mp member).2 same

/-- One was found again before a third key came, so that two is what has to go. -/
theorem histories_exact_sample :
    let history : List (Request Nat) := [.get 1, .set 2 20, .set 1 10]
    let cache := after 2 history
    (asStore : BoundedStore (RecencyCache Nat) Nat).Orderly (·.entries) ∧
      1 ∈ cache.keys ∧ (cache.set 3 30).2 = some 2 ∧ 2 ∉ (cache.set 3 30).1.keys ∧
      1 ∈ (touched 2 history).takeWhile (· != 2) ∧
      ((CountedStore.after asStore 2 history).serve asStore (.set 3 30)).1 =
        (cache.serve (.set 3 30)).1 := by
  intro history cache
  obtain ⟨⟨_, _, _, answers⟩, _, _, _, _, resident, _, drops, _⟩ :=
    histories_exact asStore (·.entries) asStore_orderly 2 history
  have untouched : ∀ key, Request.remove key ∉ history := by simp [history]
  have few : ((touched 2 history).takeWhile (· != 1)).toFinset.card < 2 := by decide
  have first : 1 ∈ cache.keys :=
    (resident untouched 1).mpr ⟨⟨10, by simp [history]⟩, few⟩
  have dropped : (cache.set 3 30).2 = some 2 := by decide
  obtain ⟨_, _, gone, since⟩ := drops 3 30 2 dropped
  exact ⟨asStore_orderly, first, dropped, gone, since 1 first (by decide), answers _⟩

end HfsPlus.RecencyCache
