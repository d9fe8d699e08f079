import HfsPlus.Proofs.Fork.Checked
import HfsPlus.Proofs.Volume.Readable

/-!
# The entries of a GUID table

The slots of a table are gone through in order. A slot that cannot be read ends the table; one
that is free, or whose sectors cannot all be on the disk, is left out and the table goes on. So the
entries that are found are picked, one by one, from the slots before the first unreadable one.

Whether sectors can be on the disk is decided by four operations that are checked one after the
other, since the numbers of sectors are any of 64 bits. Together they come to one comparison of
exact numbers: where the last sector ends, against the length of the disk or, if that is not known,
against the bound of all positions.
-/

namespace HfsPlus

namespace Checked

/-- Where a GUID entry lies, if its numbers can be computed in words of 64 bits and it lies on a disk
of known length. -/
def guidExtent (first last sectorSize : Nat) (diskLength : Option Nat) : Option (Nat × Nat) := do
  let apart ← difference last first
  let sectors ← sum apart 1
  let start ← product first sectorSize
  let length ← product sectors sectorSize
  let ending ← sum start length
  match diskLength with
  | some disk => if disk < ending then none else some (start, length)
  | none => some (start, length)

end Checked

namespace Partition

/-- The sectors of an entry are in order, and the last one ends with the disk or before it. If the
length of the disk is not known, its end must be a position. -/
def GuidEntry.Fits (volume : Volume) (entry : GuidEntry) : Prop :=
  entry.firstLba.toNat ≤ entry.lastLba.toNat ∧
    match volume.length with
    | some length => (entry.lastLba.toNat + 1) * volume.sectorSize ≤ length
    | none => (entry.lastLba.toNat + 1) * volume.sectorSize < 2 ^ 64

variable {volume : Volume} {entry : GuidEntry}

/-- On a disk of known length, the end of an entry is compared with that length. -/
theorem GuidEntry.fits_of_known {length : Nat} (known : volume.length = some length) :
    entry.Fits volume ↔ entry.firstLba.toNat ≤ entry.lastLba.toNat ∧
      (entry.lastLba.toNat + 1) * volume.sectorSize ≤ length := by
  rw [Fits, known]

/-- Otherwise it is compared with the bound of all positions. -/
theorem GuidEntry.fits_of_unknown (unknown : volume.length = none) :
    entry.Fits volume ↔ entry.firstLba.toNat ≤ entry.lastLba.toNat ∧
      (entry.lastLba.toNat + 1) * volume.sectorSize < 2 ^ 64 := by
  rw [Fits, unknown]

instance : Decidable (entry.Fits volume) :=
  match known : volume.length with
  | some _ => decidable_of_iff _ (GuidEntry.fits_of_known known).symm
  | none => decidable_of_iff _ (GuidEntry.fits_of_unknown known).symm

/-- The partition that an entry describes, if it is in use and fits on the disk. -/
def GuidEntry.listed? (volume : Volume) (slot : Nat) (entry : GuidEntry) : Option PartitionEntry :=
  if entry.typeGuid ≠ .replicate 16 0 ∧ entry.Fits volume then
    some (entry.partition (slot + 1) (entry.firstLba.toNat * volume.sectorSize)
      ((entry.lastLba.toNat - entry.firstLba.toNat + 1) * volume.sectorSize))
  else none

/-- An entry makes a partition if it is in use and fits. -/
theorem GuidEntry.listed?_isSome (slot : Nat) :
    (entry.listed? volume slot).isSome =
      decide (entry.typeGuid ≠ .replicate 16 0 ∧ entry.Fits volume) := by
  unfold listed?
  by_cases chosen : entry.typeGuid ≠ .replicate 16 0 ∧ entry.Fits volume
  · rw [if_pos chosen, decide_eq_true chosen, Option.isSome_some]
  · rw [if_neg chosen, decide_eq_false chosen, Option.isSome_none]

/-- The partition of an entry has the number of its slot counted from one, and the start and the
length of its sectors in bytes. -/
theorem GuidEntry.fields_of_listed? {slot : Nat} {part : PartitionEntry}
    (listed : entry.listed? volume slot = some part) :
    part.scheme = .guidPartitionTable ∧ part.index = slot + 1 ∧
      part.offset = entry.firstLba.toNat * volume.sectorSize ∧
      part.length = (entry.lastLba.toNat - entry.firstLba.toNat + 1) * volume.sectorSize := by
  obtain ⟨-, made⟩ := Option.ite_none_right_eq_some.mp listed
  obtain rfl := Option.some.inj made
  exact ⟨rfl, rfl, rfl, rfl⟩

/-- The entry in a slot of a table, if the slot can be read. -/
def guidSlot? (volume : Volume) (table entrySize slot : Nat) : Option GuidEntry :=
  volume.stored? .littleEndian GuidEntry.layout (table + slot * entrySize) 128

/-- The sectors of an entry end where its last one does. -/
theorem start_add_length {first last : Nat} (ordered : first ≤ last) (sectorSize : Nat) :
    first * sectorSize + (last - first + 1) * sectorSize = (last + 1) * sectorSize := by
  rw [← Nat.add_mul]
  congr 1
  omega

/-- Sectors are not empty, so there are no more of them than bytes up to their end. -/
theorem count_le_end {sectorSize : Nat} (positive : 0 < sectorSize) (first last : Nat) :
    last - first + 1 ≤ (last + 1) * sectorSize :=
  calc
    last - first + 1 ≤ last + 1 := by omega
    _ ≤ (last + 1) * sectorSize := Nat.le_mul_of_pos_right _ positive

/-- In any case an entry that fits ends at a position. -/
theorem GuidEntry.fits_iff (sized : volume.WellSized) :
    entry.Fits volume ↔ entry.firstLba.toNat ≤ entry.lastLba.toNat ∧
      (entry.lastLba.toNat + 1) * volume.sectorSize < positionBound ∧
      ∀ length, volume.length = some length →
        (entry.lastLba.toNat + 1) * volume.sectorSize ≤ length := by
  have bound : positionBound = 2 ^ 64 := rfl
  cases known : volume.length with
  | none =>
    rw [fits_of_unknown known, bound]
    simp
  | some length =>
    have told := sized.length length known
    rw [fits_of_known known]
    simp only [Option.some.injEq, forall_eq']
    omega

/-- **One comparison decides where an entry lies.** The tests that are made come to whether the
entry fits. -/
theorem guidExtent_eq (sized : volume.WellSized) (entry : GuidEntry) :
    guidExtent entry.firstLba.toNat entry.lastLba.toNat volume.sectorSize volume.length =
      if entry.Fits volume then
        some (entry.firstLba.toNat * volume.sectorSize,
          (entry.lastLba.toNat - entry.firstLba.toNat + 1) * volume.sectorSize)
      else none := by
  have few := count_le_end sized.sector entry.firstLba.toNat entry.lastLba.toNat
  unfold guidExtent
  dsimp only
  by_cases fits : entry.Fits volume
  · obtain ⟨ordered, told, inside⟩ := (GuidEntry.fits_iff sized).mp fits
    rw [if_pos fits, if_neg (Nat.not_lt.mpr ordered), if_neg (by omega), start_add_length ordered,
      if_neg (Nat.not_le.mpr told)]
    cases known : volume.length with
    | none => rfl
    | some length => exact if_neg (Nat.not_lt.mpr (inside length known))
  · rw [if_neg fits]
    split
    · rfl
    next ordered =>
      have ending := start_add_length (Nat.not_lt.mp ordered) volume.sectorSize
      split
      · rfl
      split
      · rfl
      next told =>
        rw [GuidEntry.fits_iff sized, ← ending] at fits
        cases known : volume.length with
        | none => exact absurd ⟨Nat.not_lt.mp ordered, Nat.not_le.mp told, by simp [known]⟩ fits
        | some length =>
          refine if_pos (Nat.not_le.mp fun inside => fits ?_)
          exact ⟨Nat.not_lt.mp ordered, Nat.not_le.mp told, by simpa [known] using inside⟩

/-- What checked arithmetic computes for an entry fits words of 64 bits and the disk. -/
theorem checked_guidExtent_bounds {first last sectorSize : Nat} {diskLength : Option Nat}
    {span : Nat × Nat} (computed : Checked.guidExtent first last sectorSize diskLength = some span) :
    first ≤ last ∧ (last + 1) * sectorSize < positionBound ∧
      ∀ length, diskLength = some length → (last + 1) * sectorSize ≤ length := by
  simp only [Checked.guidExtent, Checked.difference, Checked.sum, Checked.product,
    Option.bind_eq_bind, Option.bind_eq_some_iff, Option.ite_none_right_eq_some,
    Option.some.injEq] at computed
  obtain ⟨_, ⟨ordered, rfl⟩, _, ⟨-, rfl⟩, _, ⟨-, rfl⟩, _, ⟨-, rfl⟩, _, ⟨told, rfl⟩, rest⟩ := computed
  rw [start_add_length ordered] at told rest
  refine ⟨ordered, told, ?_⟩
  rintro length rfl
  by_contra beyond
  dsimp only at rest
  rw [if_pos (Nat.not_le.mp beyond)] at rest
  cases rest

/-- **Checked arithmetic comes to the same.** Where one of the operations on the numbers of an entry
would not fit a word of 64 bits, the entry does not fit the disk. -/
theorem checked_guidExtent (sized : volume.WellSized) (entry : GuidEntry) :
    Checked.guidExtent entry.firstLba.toNat entry.lastLba.toNat volume.sectorSize volume.length =
      guidExtent entry.firstLba.toNat entry.lastLba.toNat volume.sectorSize volume.length := by
  rw [guidExtent_eq sized]
  by_cases fits : entry.Fits volume
  · obtain ⟨ordered, told, inside⟩ := (GuidEntry.fits_iff sized).mp fits
    have bound : positionBound = 2 ^ 64 := rfl
    have few := count_le_end sized.sector entry.firstLba.toNat entry.lastLba.toNat
    have ending := start_add_length ordered volume.sectorSize
    rw [if_pos fits, Checked.guidExtent, Checked.difference_exact ordered, Option.bind_eq_bind,
      Option.bind_some, Checked.sum_exact (by omega), Option.bind_some,
      Checked.product_exact (by omega), Option.bind_some, Checked.product_exact (by omega),
      Option.bind_some, Checked.sum_exact (by omega), Option.bind_some, ending]
    cases known : volume.length with
    | none => rfl
    | some length => exact if_neg (Nat.not_lt.mpr (inside length known))
  · rw [if_neg fits]
    by_contra computed
    obtain ⟨span, computed⟩ := Option.ne_none_iff_exists'.mp computed
    exact fits ((GuidEntry.fits_iff sized).mpr (checked_guidExtent_bounds computed))

/-- The type of a free slot is zero. -/
theorem isFree_iff {guid : Vector UInt8 16} :
    guid.toList.all (· == 0) = true ↔ guid = .replicate 16 0 := by
  rw [List.all_eq_true, Vector.eq_replicate_iff]
  simp

/-- One step of the loop: a slot that can be read makes a partition or not, and the table goes on
behind it. -/
theorem guidEntries_step (reliable : volume.Reliable) (sized : volume.WellSized)
    (table entrySize left slot : Nat) :
    (guidEntries volume.window volume.sectorSize table entrySize (left + 1) slot :
        ExceptT Error Id (List PartitionEntry)).run =
      match guidSlot? volume table entrySize slot with
      | none => .ok []
      | some entry =>
        (guidEntries volume.window volume.sectorSize table entrySize left (slot + 1) :
          ExceptT Error Id (List PartitionEntry)).run.map
            ((entry.listed? volume slot).toList ++ ·) := by
  rw [guidEntries]
  by_cases told : table + slot * entrySize < positionBound
  · rw [if_neg (Nat.not_le.mpr told)]
    have enough : GuidEntry.layout.size ≤ 128 := by decide
    rw [Volume.run_stored reliable .littleEndian GuidEntry.layout enough (.ok [])
      (fun entry =>
        (guidEntries volume.window volume.sectorSize table entrySize left (slot + 1) :
          ExceptT Error Id (List PartitionEntry)).run.map
            ((entry.listed? volume slot).toList ++ ·)) rfl fun block entry decoded => ?_]
    · rw [guidSlot?]
      cases volume.stored? .littleEndian GuidEntry.layout (table + slot * entrySize) 128 <;> rfl
    dsimp only
    rw [decoded, GuidEntry.listed?]
    generalize behind : (guidEntries volume.window volume.sectorSize table entrySize left (slot + 1) :
      ExceptT Error Id (List PartitionEntry)) = later
    change (if entry.typeGuid.toList.all (· == 0) then later else _ : ExceptT Error Id _).run = _
    dsimp only [Volume.window]
    rw [guidExtent_eq sized]
    by_cases free : entry.typeGuid = .replicate 16 0
    · rw [if_pos (isFree_iff.mpr free), if_neg fun both => both.1 free]
      cases later.run <;> rfl
    rw [if_neg fun zero => free (isFree_iff.mp zero)]
    by_cases fits : entry.Fits volume
    · rw [if_pos fits, if_pos ⟨free, fits⟩]
      exact run_bind_direct later _
    · rw [if_neg fits, if_neg fun both => fits both.2]
      change later.run = _
      cases later.run <;> rfl
  · have unread : guidSlot? volume table entrySize slot = none := by
      rw [guidSlot?, Volume.stored?, Volume.stretch?_beyond (Nat.not_lt.mp told) (by decide)]
      rfl
    rw [if_pos (Nat.not_lt.mp told), unread]
    rfl

/-- The first slots of a table up to the first one that cannot be read. -/
def guidSlots (volume : Volume) (table entrySize first count : Nat) : List Nat :=
  (List.range' first count).takeWhile fun slot => (guidSlot? volume table entrySize slot).isSome

/-- **The loop picks the entries.** The slots are gone through up to the first unreadable one, and
those that make a partition are kept. The induction is on how many slots are left. -/
theorem guidEntries_run (reliable : volume.Reliable) (sized : volume.WellSized)
    (table entrySize left slot : Nat) :
    (guidEntries volume.window volume.sectorSize table entrySize left slot :
        ExceptT Error Id (List PartitionEntry)).run =
      .ok ((guidSlots volume table entrySize slot left).filterMap fun slot =>
        (guidSlot? volume table entrySize slot).bind (·.listed? volume slot)) := by
  induction left generalizing slot with
  | zero => rfl
  | succ left inductionHypothesis =>
    rw [guidEntries_step reliable sized, guidSlots, List.range'_succ, List.takeWhile_cons]
    cases here : guidSlot? volume table entrySize slot with
    | none => rfl
    | some entry =>
      dsimp only
      rw [inductionHypothesis, guidSlots, Option.isSome_some, if_pos rfl, List.filterMap_cons, here,
        Option.bind_some]
      cases entry.listed? volume slot <;> rfl

/-- Whatever some slots hold, the entries that are in use and fit make the partitions, in the order
of the slots. Induct over the slots. -/
theorem listed_forall₂ (volume : Volume) (slot? : Nat → Option GuidEntry) (slots : List Nat) :
    List.Forall₂ (fun slot part => ∃ entry, slot? slot = some entry ∧
        part.scheme = .guidPartitionTable ∧ part.index = slot + 1 ∧
        part.offset = entry.firstLba.toNat * volume.sectorSize ∧
        part.length = (entry.lastLba.toNat - entry.firstLba.toNat + 1) * volume.sectorSize)
      (slots.filter fun slot => (slot? slot).any fun entry =>
        decide (entry.typeGuid ≠ .replicate 16 0 ∧ entry.Fits volume))
      (slots.filterMap fun slot => (slot? slot).bind (·.listed? volume slot)) := by
  induction slots with
  | nil => exact .nil
  | cons slot later inductionHypothesis =>
    rw [List.filter_cons, List.filterMap_cons]
    cases held : slot? slot with
    | none => exact inductionHypothesis
    | some entry =>
      rw [Option.any_some, ← GuidEntry.listed?_isSome slot, Option.bind_some]
      cases listed : entry.listed? volume slot with
      | none => exact inductionHypothesis
      | some part =>
        exact .cons ⟨entry, held, GuidEntry.fields_of_listed? listed⟩ inductionHypothesis

/-- A disk whose second sector is the header of a table has the map that its slots make. -/
theorem readGuid_run (reliable : volume.Reliable) (sized : volume.WellSized) {header : GuidHeader}
    (second : volume.stored? .littleEndian GuidHeader.layout volume.sectorSize 92 = some header)
    (signed : header.signature.toList = guidSignature) (large : 128 ≤ header.entrySize.toNat)
    (told : header.entriesLba.toNat * volume.sectorSize < positionBound) :
    (readGuid volume.window volume.sectorSize :
        ExceptT Error Id (Option (List PartitionEntry))).run =
      .ok (some ((guidSlots volume (header.entriesLba.toNat * volume.sectorSize)
        header.entrySize.toNat 0 (min header.entryCount.toNat 1024)).filterMap fun slot =>
          (guidSlot? volume (header.entriesLba.toNat * volume.sectorSize) header.entrySize.toNat
            slot).bind (·.listed? volume slot))) := by
  have enough : GuidHeader.layout.size ≤ 92 := by decide
  rw [readGuid, Volume.run_stored reliable .littleEndian GuidHeader.layout enough
    (.ok none) (fun header =>
      (do
        if header.signature.toList ≠ guidSignature || header.entrySize < 128 then return none
        let table := header.entriesLba.toNat * volume.sectorSize
        if positionBound ≤ table then
          log (.tableBeyondDisk header.entriesLba.toNat)
          return none
        let count := min header.entryCount.toNat maxEntries
        some <$> guidEntries volume.window volume.sectorSize table header.entrySize.toNat count 0 :
          ExceptT Error Id _).run)
    rfl fun block header decoded => by dsimp only; rw [decoded]; rfl]
  rw [second]
  dsimp only
  have accepted : (decide (header.signature.toList ≠ guidSignature) ||
      decide (header.entrySize < 128)) = false := by
    simp only [signed, ne_eq, not_true, decide_false, Bool.false_or, decide_eq_false_iff_not,
      UInt32.not_lt, UInt32.le_iff_toNat_le]
    exact large
  rw [accepted, if_neg (by decide), if_neg (Nat.not_le.mpr told)]
  rw [ExceptT.run_map, guidEntries_run reliable sized]
  rfl

/-- **A GUID map lists exactly the entries that fit.** On a disk whose second sector is the header
of a table, with slots that are large enough for an entry and a start that is a position, the map is
the GUID map, whatever else is on the disk. Of the first 1024 slots, or as many as the header counts,
those before the first unreadable one are gone through, and those whose entries are in use and fit on
the disk make one partition each, in the order of the slots, with the number of the slot counted from
one and with the start and the length of its sectors in bytes. The places of the slots can be computed
in words of 64 bits, and so can where an entry lies, or it does not fit. -/
theorem guid_map_exact (reliable : volume.Reliable) (sized : volume.WellSized)
    {header : GuidHeader}
    (second : volume.stored? .littleEndian GuidHeader.layout volume.sectorSize 92 = some header)
    (signed : header.signature.toList = guidSignature) (large : 128 ≤ header.entrySize.toNat)
    (told : header.entriesLba.toNat * volume.sectorSize < 2 ^ 64) :
    let table := header.entriesLba.toNat * volume.sectorSize
    let entrySize := header.entrySize.toNat
    let count := min header.entryCount.toNat 1024
    let slots := (List.range count).takeWhile fun slot =>
      (guidSlot? volume table entrySize slot).isSome
    let parts := slots.filterMap fun slot =>
      (guidSlot? volume table entrySize slot).bind (·.listed? volume slot)
    (volume.partitionMap? : ExceptT Error Id (Option PartitionMap)).run =
        .ok (some ⟨.guidPartitionTable, parts⟩) ∧
      List.Forall₂ (fun slot part => ∃ entry, guidSlot? volume table entrySize slot = some entry ∧
          part.scheme = .guidPartitionTable ∧ part.index = slot + 1 ∧
          part.offset = entry.firstLba.toNat * volume.sectorSize ∧
          part.length = (entry.lastLba.toNat - entry.firstLba.toNat + 1) * volume.sectorSize)
        (slots.filter fun slot => (guidSlot? volume table entrySize slot).any fun entry =>
          decide (entry.typeGuid ≠ .replicate 16 0 ∧ entry.Fits volume)) parts ∧
      Checked.product header.entriesLba.toNat volume.sectorSize = some table ∧
      (∀ slot < count, Checked.product slot entrySize = some (slot * entrySize)) ∧
      ∀ entry : GuidEntry,
        Checked.guidExtent entry.firstLba.toNat entry.lastLba.toNat volume.sectorSize volume.length =
          if entry.Fits volume then
            some (entry.firstLba.toNat * volume.sectorSize,
              (entry.lastLba.toNat - entry.firstLba.toNat + 1) * volume.sectorSize)
          else none := by
  intro table entrySize count slots parts
  refine ⟨?_, listed_forall₂ volume _ slots, Checked.product_exact told,
    fun slot inside => Checked.product_exact ?_, fun entry => ?_⟩
  · rw [Volume.partitionMap?, run_bind_direct, readGuid_run reliable sized second signed large told,
      guidSlots, ← List.range_eq_range']
    rfl
  · have few : slot ≤ 1024 := by omega
    calc
      slot * entrySize ≤ 1024 * 2 ^ 32 :=
        Nat.mul_le_mul few (Nat.le_of_lt header.entrySize.toNat_lt)
      _ < 2 ^ 64 := by decide
  · rw [checked_guidExtent sized, guidExtent_eq sized]

section Sample

/-- The header of a table that starts with the third sector and counts nine slots. -/
def sampleHeader : GuidHeader :=
  { GuidHeader.layout.zero with
    signature := ⟨guidSignature.toArray, rfl⟩, entriesLba := 2, entryCount := 9, entrySize := 128 }

/-- An entry that is in use. -/
def sampleSpan (firstLba lastLba : UInt64) : GuidEntry :=
  { GuidEntry.layout.zero with typeGuid := .replicate 16 7, firstLba := firstLba, lastLba := lastLba }

/-- The first slot is free. The second one holds all sectors there can be, the third one two of
them, and the fourth one a sector that lies behind the disk. A fifth one is not on it. -/
def sampleTable : Bytes :=
  List.replicate 100 0 ++ GuidHeader.layout.encode .littleEndian sampleHeader ++
    List.replicate 8 0 ++ GuidEntry.layout.encode .littleEndian GuidEntry.layout.zero ++
    GuidEntry.layout.encode .littleEndian (sampleSpan 0 0xFFFFFFFFFFFFFFFF) ++
    GuidEntry.layout.encode .littleEndian (sampleSpan 3 4) ++
    GuidEntry.layout.encode .littleEndian (sampleSpan 7 7)

/-- The disk with this table. Its sectors have a hundred bytes. -/
def sampleGuidDisk : Volume := .ofSource (.ofImage ⟨sampleTable.toArray⟩) 100

/-- The table has 712 bytes. -/
theorem length_sampleTable : sampleTable.length = 712 := by decide +kernel

/-- The disk holds the table. -/
theorem sampleGuidDisk_holds : sampleGuidDisk.source.Holds sampleTable := Source.holds_ofImage _

/-- Its bytes have positions. -/
theorem sampleGuidDisk_told : sampleTable.length ≤ positionBound := by
  rw [length_sampleTable]
  decide

/-- Its length is known. -/
theorem sampleGuidDisk_length : sampleGuidDisk.length = some sampleTable.length := by decide +kernel

/-- Structures of the disk are those of its bytes. -/
theorem sampleGuidDisk_stored {α : Type} (layout : Layout α) {offset count : Nat}
    (inside : offset + count ≤ 712) :
    sampleGuidDisk.stored? .littleEndian layout offset count =
      (layout.decode .littleEndian ((sampleTable.drop offset).take count)).map (·.1) := by
  have shows : sampleGuidDisk.Shows sampleTable :=
    Volume.shows_of_holds sampleGuidDisk_holds sampleGuidDisk_told rfl sampleGuidDisk_length
  rw [Volume.stored?, shows.stretch? (by rwa [length_sampleTable]), Option.bind_some]

/-- The four slots that can be read, and the one that cannot. -/
theorem sampleGuidDisk_slots :
    guidSlot? sampleGuidDisk 200 128 0 = some GuidEntry.layout.zero ∧
      guidSlot? sampleGuidDisk 200 128 1 = some (sampleSpan 0 0xFFFFFFFFFFFFFFFF) ∧
      guidSlot? sampleGuidDisk 200 128 2 = some (sampleSpan 3 4) ∧
      guidSlot? sampleGuidDisk 200 128 3 = some (sampleSpan 7 7) ∧
      guidSlot? sampleGuidDisk 200 128 4 = none := by
  have behind : sampleGuidDisk.readAt 712 128 = .ok [] := by
    rw [Volume.readAt_eq, Volume.content_of_holds _ sampleGuidDisk_holds sampleGuidDisk_told,
      List.drop_eq_nil_of_le (by rw [length_sampleTable]; decide), List.take_nil]
  refine ⟨?_, ?_, ?_, ?_, by rw [guidSlot?, Volume.stored?, Volume.stretch?, behind]; rfl⟩
  all_goals
    rw [guidSlot?, sampleGuidDisk_stored _ (by decide)]
    decide +kernel

/-- The two sectors are found, and nothing else. -/
theorem guid_map_exact_sample :
    sampleGuidDisk.Reliable ∧ sampleGuidDisk.WellSized ∧
      sampleGuidDisk.stored? .littleEndian GuidHeader.layout sampleGuidDisk.sectorSize 92 =
        some sampleHeader ∧
      sampleHeader.signature.toList = guidSignature ∧ 128 ≤ sampleHeader.entrySize.toNat ∧
      sampleHeader.entriesLba.toNat * sampleGuidDisk.sectorSize < 2 ^ 64 ∧
      ∃ part, (sampleGuidDisk.partitionMap? : ExceptT Error Id (Option PartitionMap)).run =
          .ok (some ⟨.guidPartitionTable, [part]⟩) ∧
        part.scheme = .guidPartitionTable ∧ part.index = 3 ∧ part.offset = 300 ∧
        part.length = 200 := by
  have reliable := Volume.reliable_of_holds sampleGuidDisk_holds sampleGuidDisk_told
  have sized : sampleGuidDisk.WellSized := Volume.wellSized_ofSource (by decide +kernel) (by decide)
  have second : sampleGuidDisk.stored? .littleEndian GuidHeader.layout 100 92 =
      some sampleHeader := by
    rw [sampleGuidDisk_stored _ (by decide)]
    decide +kernel
  obtain ⟨map, described, -⟩ := guid_map_exact reliable sized second rfl (by decide) (by decide)
  have table : sampleHeader.entriesLba.toNat * sampleGuidDisk.sectorSize = 200 := rfl
  have size : sampleHeader.entrySize.toNat = 128 := rfl
  have count : List.range (min sampleHeader.entryCount.toNat 1024) = [0, 1, 2, 3, 4, 5, 6, 7, 8] := rfl
  obtain ⟨free, all, some_, beyond, ends⟩ := sampleGuidDisk_slots
  rw [table, size, count] at described map
  have chosen : ([0, 1, 2, 3, 4, 5, 6, 7, 8].takeWhile fun slot =>
        (guidSlot? sampleGuidDisk 200 128 slot).isSome).filter (fun slot =>
      (guidSlot? sampleGuidDisk 200 128 slot).any fun entry =>
        decide (entry.typeGuid ≠ .replicate 16 0 ∧ entry.Fits sampleGuidDisk)) = [2] := by
    simp only [List.takeWhile_cons, free, all, some_, beyond, ends]
    decide +kernel
  rw [chosen] at described
  obtain ⟨part, _, ⟨entry, held, scheme, index, offset, length⟩, rest, listed⟩ :=
    List.forall₂_cons_left_iff.mp described
  rw [List.forall₂_nil_left_iff.mp rest] at listed
  rw [listed] at map
  obtain rfl := Option.some.inj (some_.symm.trans held)
  exact ⟨reliable, sized, second, rfl, by decide, by decide, part, map, scheme, index, offset, length⟩

end Sample

end Partition

end HfsPlus
