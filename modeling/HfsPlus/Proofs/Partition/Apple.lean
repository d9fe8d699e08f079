import HfsPlus.Proofs.Volume.Readable

/-!
# The run of entries of an Apple map

A map of this kind does not say once how many entries it has. Each of its entries does, and the
last word counts, so the bound moves while the map is read. What comes of it can be said without
the loop: the map is the longest run of blocks, from the first one on, that start as an entry does
and come no later than the entry before them says. There is only one such run, and it has no more
than 1024 blocks.
-/

namespace HfsPlus.Partition

/-- The entry in a block of a map, if the block can be read and starts as an entry does. -/
def appleBlock? (volume : Volume) (blockSize index : Nat) : Option AppleEntry :=
  (volume.stored? .bigEndian AppleEntry.layout (index * blockSize) 512).filter
    (·.signature = 0x504D)

/-- How many entries a map has by the word of the block in front of one of its blocks. The first
block has only the descriptor of the disk in front of it, and one entry is expected there. -/
def appleBound (volume : Volume) (blockSize : Nat) : (index : Nat) → Nat
  | index + 2 => ((appleBlock? volume blockSize (index + 1)).map (·.mapEntries.toNat)).getD 0
  | _ => 1

/-- A map goes on with a block. -/
structure AppleGoesOn (volume : Volume) (blockSize index : Nat) : Prop where
  few : index ≤ 1024
  claimed : index ≤ appleBound volume blockSize index
  holds : appleBlock? volume blockSize index ≠ none

/-- Some entries are those of the longest run of blocks from `index` on with which a map goes on. -/
structure AppleRun (volume : Volume) (blockSize index : Nat) (entries : List AppleEntry) :
    Prop where
  inside : ∀ place entry, entries[place]? = some entry →
    AppleGoesOn volume blockSize (index + place) ∧
      appleBlock? volume blockSize (index + place) = some entry
  ends : ¬ AppleGoesOn volume blockSize (index + entries.length)

variable {volume : Volume} {blockSize index : Nat} {entries : List AppleEntry}

/-- Behind an entry, the map has as many entries as this one says. -/
theorem appleBound_behind {entry : AppleEntry} (later : 1 ≤ index)
    (holds : appleBlock? volume blockSize index = some entry) :
    appleBound volume blockSize (index + 1) = entry.mapEntries.toNat := by
  obtain ⟨before, rfl⟩ := Nat.exists_eq_add_of_le' later
  rw [appleBound, holds]
  rfl

namespace AppleRun

/-- A run without entries ends where it starts. -/
theorem nothing (ends : ¬ AppleGoesOn volume blockSize index) :
    AppleRun volume blockSize index [] where
  inside place entry there := by simp at there
  ends := ends

/-- An entry in front of a run makes a longer one. -/
theorem cons {entry : AppleEntry} (goesOn : AppleGoesOn volume blockSize index)
    (holds : appleBlock? volume blockSize index = some entry)
    (later : AppleRun volume blockSize (index + 1) entries) :
    AppleRun volume blockSize index (entry :: entries) where
  inside place found there := by
    cases place with
    | zero =>
      cases there
      exact ⟨goesOn, holds⟩
    | succ place =>
      rw [show index + (place + 1) = index + 1 + place by omega]
      exact later.inside place found there
  ends := by
    rw [List.length_cons, show index + (entries.length + 1) = index + 1 + entries.length by omega]
    exact later.ends

/-- The map goes on with each block of a run. -/
theorem goesOn (run : AppleRun volume blockSize index entries) {place : Nat}
    (inside : place < entries.length) : AppleGoesOn volume blockSize (index + place) :=
  (run.inside place _ (List.getElem?_eq_getElem inside)).1

/-- A run ends where the map does not go on. -/
theorem length_eq (run : AppleRun volume blockSize index entries) {count : Nat}
    (goesOn : ∀ place < count, AppleGoesOn volume blockSize (index + place))
    (ends : ¬ AppleGoesOn volume blockSize (index + count)) : entries.length = count := by
  apply Nat.le_antisymm
  · by_contra longer
    exact ends (run.goesOn (Nat.not_le.mp longer))
  · by_contra shorter
    exact run.ends (goesOn _ (Nat.not_le.mp shorter))

/-- There is one run only. -/
theorem unique {other : List AppleEntry} (run : AppleRun volume blockSize index entries)
    (also : AppleRun volume blockSize index other) : entries = other := by
  have length : entries.length = other.length :=
    run.length_eq (fun _ inside => also.goesOn inside) also.ends
  refine List.ext_getElem length fun place inside inOther => ?_
  have left := (run.inside place _ (List.getElem?_eq_getElem inside)).2
  have right := (also.inside place _ (List.getElem?_eq_getElem inOther)).2
  exact Option.some.inj (left.symm.trans right)

/-- A run from the first block on has no more than 1024 entries. -/
theorem length_le (run : AppleRun volume blockSize 1 entries) : entries.length ≤ 1024 := by
  by_contra longer
  have last := (run.goesOn (Nat.not_le.mp longer)).few
  omega

/-- Whether there is a run, and which, is told by its blocks and the one that ends it, as far as
these are among the first 1024. -/
theorem of_same {other : Volume} (run : AppleRun volume blockSize 1 entries)
    (same : ∀ index, 1 ≤ index → index ≤ entries.length + 1 → index ≤ 1024 →
      appleBlock? other blockSize index = appleBlock? volume blockSize index) :
    AppleRun other blockSize 1 entries := by
  have bound (place : Nat) (inside : place ≤ entries.length) (few : 1 + place ≤ 1024) :
      appleBound other blockSize (1 + place) = appleBound volume blockSize (1 + place) := by
    rw [Nat.add_comm 1 place]
    cases place with
    | zero => rfl
    | succ place => rw [appleBound, appleBound, same _ (by omega) (by omega) (by omega)]
  constructor
  · intro place entry there
    have inside := (List.getElem?_eq_some_iff.mp there).1
    obtain ⟨goesOn, holds⟩ := run.inside place entry there
    have here := same (1 + place) (by omega) (by omega) goesOn.few
    refine ⟨⟨goesOn.few, ?_, ?_⟩, here.trans holds⟩
    · rw [bound place (by omega) goesOn.few]
      exact goesOn.claimed
    · rw [here]
      exact goesOn.holds
  · intro goesOn
    have few := goesOn.few
    refine run.ends ⟨few, ?_, ?_⟩
    · rw [← bound _ (Nat.le_refl _) few]
      exact goesOn.claimed
    · rw [← same _ (by omega) (by omega) few]
      exact goesOn.holds

end AppleRun

/-- The entries of a run as partitions. -/
def appleParts (blockSize index : Nat) (entries : List AppleEntry) : List PartitionEntry :=
  (entries.zipIdx index).map fun (entry, number) => entry.partition number blockSize

/-- Each partition is made of the entry at its place. -/
theorem appleParts_getElem? (place : Nat) :
    (appleParts blockSize index entries)[place]? =
      (entries[place]?).map fun entry => entry.partition (index + place) blockSize := by
  simp [appleParts, Option.map_map, Function.comp_def]

/-- One step of the loop: a block within the bound that holds an entry makes the first partition,
and sets the bound for those behind it. -/
theorem appleEntries_step (reliable : volume.Reliable) (left index claimed : Nat) :
    (appleEntries volume.window blockSize (left + 1) index claimed :
        ExceptT Error Id (List PartitionEntry)).run =
      if claimed < index then .ok []
      else
        match appleBlock? volume blockSize index with
        | none => .ok []
        | some entry =>
          (appleEntries volume.window blockSize left (index + 1) entry.mapEntries.toNat :
            ExceptT Error Id (List PartitionEntry)).run.map (entry.partition index blockSize :: ·) := by
  rw [appleEntries]
  by_cases claimed_ : claimed < index
  · rw [if_pos claimed_, if_pos claimed_]
    rfl
  rw [if_neg claimed_, if_neg claimed_,
    Volume.run_stored reliable .bigEndian AppleEntry.layout (by decide) (.ok [])
      (fun entry => if entry.signature ≠ 0x504D then .ok [] else
        (appleEntries volume.window blockSize left (index + 1) entry.mapEntries.toNat :
          ExceptT Error Id (List PartitionEntry)).run.map (entry.partition index blockSize :: ·))
      rfl fun block entry decoded => ?_]
  · rw [appleBlock?]
    cases stored : volume.stored? .bigEndian AppleEntry.layout (index * blockSize) 512 with
    | none => rfl
    | some entry =>
      rw [Option.filter_some]
      by_cases signed : entry.signature = 0x504D <;> simp [signed]
  · dsimp only
    rw [decoded]
    change (if entry.signature ≠ 0x504D then pure [] else _ : ExceptT Error Id _).run = _
    split
    · rfl
    · rw [run_bind_direct]
      rfl

/-- **The loop finds the run.** From a block on, with the bound that the block before has set, the
entries of the run are read, as long as they are among the first 1024. The induction is on how many
more of these there are. -/
theorem appleEntries_run (reliable : volume.Reliable) (blockSize left : Nat) (later : 1 ≤ index)
    (few : index + left = 1025) :
    ∃ entries, AppleRun volume blockSize index entries ∧
      (appleEntries volume.window blockSize left index (appleBound volume blockSize index) :
        ExceptT Error Id (List PartitionEntry)).run = .ok (appleParts blockSize index entries) := by
  induction left generalizing index with
  | zero => exact ⟨[], .nothing fun goesOn => by have := goesOn.few; omega, rfl⟩
  | succ left inductionHypothesis =>
    rw [appleEntries_step reliable]
    by_cases claimed : appleBound volume blockSize index < index
    · rw [if_pos claimed]
      exact ⟨[], .nothing fun goesOn => by have := goesOn.claimed; omega, rfl⟩
    rw [if_neg claimed]
    cases holds : appleBlock? volume blockSize index with
    | none => exact ⟨[], .nothing fun goesOn => goesOn.holds holds, rfl⟩
    | some entry =>
      obtain ⟨entries, run, read⟩ := inductionHypothesis (Nat.le_add_left 1 index) (by omega)
      rw [appleBound_behind later holds] at read
      refine ⟨entry :: entries, .cons ⟨by omega, by omega, by simp [holds]⟩ holds run, ?_⟩
      dsimp only
      rw [read]
      rfl

/-- A disk whose first block is a descriptor has the map that the run of its blocks makes, if this
has any entries. -/
theorem readApple_run (reliable : volume.Reliable) {descriptor : DriverDescriptor}
    (first : volume.stored? .bigEndian DriverDescriptor.layout 0 512 = some descriptor)
    (signed : descriptor.signature = 0x4552) (size : Nat)
    (sized : size = if descriptor.blockSize = 0 then 512 else descriptor.blockSize.toNat) :
    ∃ entries, AppleRun volume size 1 entries ∧
      (readApple volume.window : ExceptT Error Id (Option (List PartitionEntry))).run =
        .ok (if entries = [] then none else some (appleParts size 1 entries)) := by
  obtain ⟨entries, run, read⟩ := appleEntries_run reliable size 1024 (Nat.le_refl 1) rfl
  refine ⟨entries, run, ?_⟩
  rw [readApple, Volume.run_stored reliable .bigEndian DriverDescriptor.layout (by decide)
    (.ok none) (fun descriptor =>
      (do
        if descriptor.signature ≠ 0x4552 then return none
        let size := if descriptor.blockSize = 0 then 512 else descriptor.blockSize.toNat
        let entries ← appleEntries volume.window size maxEntries 1 1
        return if entries.isEmpty then none else some entries : ExceptT Error Id _).run)
    rfl fun block descriptor decoded => by dsimp only; rw [decoded]; rfl]
  rw [first]
  dsimp only
  rw [if_neg (not_not.mpr signed), ← sized, run_bind_direct]
  change Except.bind (appleEntries volume.window size 1024 1 (appleBound volume size 1) :
    ExceptT Error Id _).run _ = _
  rw [read]
  cases entries <;> rfl

/-- All entries of a map whose entries agree on how many there are make up its run. -/
theorem AppleRun.length_of_agreed (run : AppleRun volume blockSize 1 entries) {count : Nat}
    (some_ : 1 ≤ count) (few : count ≤ 1024)
    (agreed : ∀ index, 1 ≤ index → index ≤ count →
      ∃ entry, appleBlock? volume blockSize index = some entry ∧ entry.mapEntries.toNat = count) :
    entries.length = count := by
  have bound (index : Nat) (later : 1 ≤ index) (inside : index ≤ count) :
      appleBound volume blockSize (index + 1) = count := by
    obtain ⟨entry, holds, claimed⟩ := agreed index later inside
    rw [appleBound_behind later holds, claimed]
  refine run.length_eq (fun place inside => ?_) fun goesOn => ?_
  · obtain ⟨entry, holds, -⟩ := agreed (1 + place) (by omega) (by omega)
    refine ⟨by omega, ?_, by simp [holds]⟩
    cases place with
    | zero => exact Nat.le_refl 1
    | succ place =>
      rw [← Nat.add_assoc, bound (1 + place) (by omega) (by omega)]
      omega
  · have claimed := goesOn.claimed
    rw [Nat.add_comm, bound count some_ (Nat.le_refl _)] at claimed
    omega

/-- **An Apple map is the longest run of its blocks.** On a disk that starts with a descriptor, the
blocks are gone through from the first one on: as long as a block can be read, starts as an entry
does, is among the first 1024, and comes no later than the entry before it says. What is found are
the partitions of exactly these entries, each with the number of its block and with its start and
its length in map blocks, and no map is found if there are none. If the entries agree on how many
there are, it is all of them. What lies behind the block that ends the run, or behind the 1024th,
makes no difference. -/
theorem apple_map_exact (reliable : volume.Reliable) {descriptor : DriverDescriptor}
    (first : volume.stored? .bigEndian DriverDescriptor.layout 0 512 = some descriptor)
    (signed : descriptor.signature = 0x4552) :
    let size := if descriptor.blockSize = 0 then 512 else descriptor.blockSize.toNat
    ∃ entries, AppleRun volume size 1 entries ∧ entries.length ≤ 1024 ∧
      (readApple volume.window : ExceptT Error Id (Option (List PartitionEntry))).run =
        .ok (if entries = [] then none else some (appleParts size 1 entries)) ∧
      (∀ place part, (appleParts size 1 entries)[place]? = some part →
        ∃ entry, entries[place]? = some entry ∧ part = entry.partition (place + 1) size ∧
          part.index = place + 1 ∧ part.offset = entry.startBlock.toNat * size ∧
          part.length = entry.blockCount.toNat * size) ∧
      (∀ count, 1 ≤ count → count ≤ 1024 →
        (∀ index, 1 ≤ index → index ≤ count → ∃ entry,
          appleBlock? volume size index = some entry ∧ entry.mapEntries.toNat = count) →
        entries.length = count) ∧
      ∀ other : Volume, other.Reliable →
        other.stored? .bigEndian DriverDescriptor.layout 0 512 = some descriptor →
        (∀ index, 1 ≤ index → index ≤ entries.length + 1 → index ≤ 1024 →
          other.stretch? (index * size) 512 = volume.stretch? (index * size) 512) →
        (readApple other.window : ExceptT Error Id (Option (List PartitionEntry))).run =
          (readApple volume.window : ExceptT Error Id (Option (List PartitionEntry))).run := by
  intro size
  obtain ⟨entries, run, read⟩ := readApple_run reliable first signed size rfl
  refine ⟨entries, run, run.length_le, read, ?_, ?_, ?_⟩
  · intro place part there
    rw [appleParts_getElem?, Option.map_eq_some_iff] at there
    obtain ⟨entry, holds, rfl⟩ := there
    rw [Nat.add_comm 1 place]
    exact ⟨entry, holds, rfl, rfl, rfl, rfl⟩
  · exact fun count some_ few agreed => run.length_of_agreed some_ few agreed
  · intro other alsoReliable sameFirst same
    obtain ⟨found, otherRun, otherRead⟩ := readApple_run alsoReliable sameFirst signed size rfl
    have moved : AppleRun other size 1 entries := run.of_same fun index later inside few => by
      rw [appleBlock?, appleBlock?, Volume.stored?, Volume.stored?, same index later inside few]
    rw [otherRead, read, otherRun.unique moved]

section Sample

/-- The descriptor of a disk whose map blocks have 128 bytes. -/
def sampleDescriptor : DriverDescriptor := ⟨0x4552, 128, 7⟩

/-- An entry that says how many entries there are, and where its partition lies. -/
def sampleEntry (mapEntries startBlock blockCount : UInt32) : AppleEntry :=
  ⟨0x504D, 0, mapEntries, startBlock, blockCount, .replicate 32 0, .replicate 32 0⟩

/-- The first entry says that there are three, and the second one that there are two. A third one
stands behind them. -/
def sampleMap : Bytes :=
  DriverDescriptor.layout.encode .bigEndian sampleDescriptor ++ List.replicate 120 0 ++
    AppleEntry.layout.encode .bigEndian (sampleEntry 3 1 3) ++ List.replicate 48 0 ++
    AppleEntry.layout.encode .bigEndian (sampleEntry 2 4 2) ++ List.replicate 48 0 ++
    AppleEntry.layout.encode .bigEndian (sampleEntry 9 6 1) ++ List.replicate 432 0

/-- The disk with this map. -/
def sampleDisk : Volume := .ofImage ⟨sampleMap.toArray⟩

/-- Reads of the disk do not fail. -/
theorem sampleDisk_reliable : sampleDisk.Reliable :=
  Volume.reliable_of_holds (Source.holds_ofImage _) (by decide +kernel)

/-- Structures of the disk are those of its bytes. -/
theorem sampleDisk_stored {α : Type} (layout : Layout α) {offset : Nat} (inside : offset ≤ 384) :
    sampleDisk.stored? .bigEndian layout offset 512 =
      (layout.decode .bigEndian ((sampleMap.drop offset).take 512)).map (·.1) := by
  have length : sampleMap.length = 896 := by decide +kernel
  have shows : sampleDisk.Shows sampleMap := Volume.shows_ofImage (by rw [length]; decide)
  rw [Volume.stored?, shows.stretch? (by omega), Option.bind_some]

/-- The map has two entries: the second one ends it, whatever the first one said. -/
theorem apple_map_exact_sample :
    sampleDisk.Reliable ∧
      sampleDisk.stored? .bigEndian DriverDescriptor.layout 0 512 = some sampleDescriptor ∧
      sampleDescriptor.signature = 0x4552 ∧
      (readApple sampleDisk.window : ExceptT Error Id (Option (List PartitionEntry))).run =
        .ok (some [(sampleEntry 3 1 3).partition 1 128, (sampleEntry 2 4 2).partition 2 128]) := by
  have first : sampleDisk.stored? .bigEndian DriverDescriptor.layout 0 512 =
      some sampleDescriptor := by
    rw [sampleDisk_stored _ (by decide)]
    decide +kernel
  have one : appleBlock? sampleDisk 128 1 = some (sampleEntry 3 1 3) := by
    rw [appleBlock?, sampleDisk_stored _ (by decide)]
    decide +kernel
  have two : appleBlock? sampleDisk 128 2 = some (sampleEntry 2 4 2) := by
    rw [appleBlock?, sampleDisk_stored _ (by decide)]
    decide +kernel
  obtain ⟨entries, run, -, read, -⟩ := apple_map_exact sampleDisk_reliable first rfl
  have ends : ¬ AppleGoesOn sampleDisk 128 3 := fun goesOn => by
    have claimed := goesOn.claimed
    rw [appleBound_behind (by decide) two] at claimed
    exact absurd claimed (by decide)
  have whole : AppleRun sampleDisk 128 1 [sampleEntry 3 1 3, sampleEntry 2 4 2] :=
    .cons ⟨by decide, by decide, by simp [one]⟩ one
      (.cons ⟨by decide, by rw [appleBound_behind (by decide) one]; decide, by simp [two]⟩ two
        (.nothing ends))
  refine ⟨sampleDisk_reliable, first, rfl, ?_⟩
  rw [read, run.unique whole]
  rfl

end Sample

end HfsPlus.Partition
