import HfsPlus.Bytes

/-!
# A bounded cache that forgets what was not used for longest

The entries are kept in order of use, the most recently used first. Looking an
entry up and storing one both move it to the front; storing into a full cache
drops the last entry, unless the key was there already. A cache of capacity zero
keeps nothing. Every look-up is counted as a hit or a miss.
-/

namespace HfsPlus

/-- Entries in order of use, with the counts of look-ups that found something and
that did not. -/
structure RecencyCache (α : Type) where
  capacity : Nat
  /-- The most recently used entry comes first. -/
  entries : List (Nat × α)
  hits : Nat
  misses : Nat

namespace RecencyCache

variable {α : Type}

/-- A cache without entries. -/
def empty (capacity : Nat) : RecencyCache α := ⟨capacity, [], 0, 0⟩

/-- How many entries are resident. -/
def size (cache : RecencyCache α) : Nat := cache.entries.length

/-- The value kept under a key, if any. -/
def peek? (cache : RecencyCache α) (key : Nat) : Option α :=
  (cache.entries.find? fun entry => entry.1 == key).map (·.2)

/-- The entries under other keys, in their order. -/
def others (cache : RecencyCache α) (key : Nat) : List (Nat × α) :=
  cache.entries.filter fun entry => entry.1 != key

/-- Look a key up, counting the look-up and making what it finds the most recently
used entry. -/
def get (cache : RecencyCache α) (key : Nat) : Option α × RecencyCache α :=
  match cache.peek? key with
  | some value =>
    (some value,
      { cache with entries := (key, value) :: cache.others key, hits := cache.hits + 1 })
  | none => (none, { cache with misses := cache.misses + 1 })

/-- Keep a value under a key as the most recently used entry. A full cache without
the key loses its last entry, whose key is reported. -/
def set (cache : RecencyCache α) (key : Nat) (value : α) : RecencyCache α × Option Nat :=
  if cache.capacity = 0 then (cache, none)
  else
    let others := cache.others key
    let dropped := (others.drop (cache.capacity - 1)).head?.map (·.1)
    ({ cache with entries := (key, value) :: others.take (cache.capacity - 1) }, dropped)

/-- Take the entry of a key out. -/
def remove (cache : RecencyCache α) (key : Nat) : Option α × RecencyCache α :=
  (cache.peek? key, { cache with entries := cache.others key })

end RecencyCache

/-- The key under which a node of a tree is cached. -/
def cacheKey (tree node : UInt32) : Nat := tree.toNat * UInt32.size + node.toNat

end HfsPlus
