import HfsPlus.Proofs.Volume.Readable
import Mathlib.Algebra.Ring.Nat

/-!
# Attaching partitions

The map of a disk is read first, and only then are its entries turned into parts of the disk, one
behind the other. So a disk whose map cannot be read, or that has none, stays as it is, and what was
attached before stays in any case.

The three kinds of map count in units of their own, map blocks or sectors, and only a GUID map
leaves out what does not fit its disk. For an entry of any of them 64 bits hold the start and the
length in bytes, and the part that is cut at them reads as the disk does there, as far as the disk
reaches.
-/

namespace HfsPlus

/-- A source has nothing at the last position: how many bytes it has is a number of 64 bits, and
they are counted from zero. -/
def Source.SpareLast (source : Source) : Prop :=
  ∀ wanted, (source.deliver (positionBound - 1) wanted).settle = .ok []

/-- No byte of a volume is asked for behind the last position: it starts where its source does, or
it is known to end at a position, or its source has nothing at the last one. -/
def Volume.Told (volume : Volume) : Prop :=
  volume.offset = 0 ∨
    (∃ length, volume.length = some length ∧ volume.offset + length ≤ positionBound) ∨
    volume.source.SpareLast

/-- Where nothing is delivered, nothing is gathered. -/
theorem Source.gather_nothing {source : Source} {start wanted : Nat}
    (nothing : (source.deliver start wanted).settle = .ok []) :
    source.gather start wanted = .ok [] := by
  rw [gather, gatherBehind]
  split
  · rfl
  · rw [nothing]
    rfl

/-- From the last position of a source on, a volume has nothing. -/
theorem Volume.content_last {volume : Volume} (spare : volume.source.SpareLast)
    (last : volume.offset = positionBound - 1) (offset wanted : Nat) :
    volume.content offset wanted = .ok [] := by
  rw [content_eq]
  split
  · rfl
  next told =>
    have here : volume.offset + offset = positionBound - 1 := by omega
    rw [here]
    exact Source.gather_nothing (spare _)

namespace PartitionEntry

/-- How many bytes of an entry lie on a disk. -/
def room (entry : PartitionEntry) (disk : Volume) : Nat :=
  match disk.length with
  | none => entry.length
  | some outer => min entry.length (outer - entry.offset)

/-- A part of a disk was made of an entry: it says so, and it reads as the disk does between the
bounds of the entry. -/
structure MadeInto (entry : PartitionEntry) (disk part : Volume) : Prop where
  kind : part.kind = .partition entry.scheme entry.index entry.name entry.typeName
  depth : part.depth = disk.depth + 1
  length : part.length = some (entry.room disk)
  inside : ∀ offset wanted, offset < entry.room disk →
    part.readAt offset wanted =
      disk.readAt (entry.offset + offset) (min wanted (entry.room disk - offset))
  behind : ∀ offset wanted, entry.room disk ≤ offset → part.readAt offset wanted = .ok []

/-- An entry is one of a map of a disk: it is of the kind of the map, and 64 bits hold its start and
its length. An entry of a GUID map lies on the disk as a whole. -/
structure Sound (entry : PartitionEntry) (disk : Volume) (scheme : PartitionScheme) : Prop where
  scheme_eq : entry.scheme = scheme
  offset_lt : entry.offset < 2 ^ 64
  length_lt : entry.length < 2 ^ 64
  whole : scheme = .guidPartitionTable → entry.offset + entry.length < 2 ^ 64 ∧
    ∀ outer, disk.length = some outer → entry.offset + entry.length ≤ outer

/-- Where some of an entry lies on a disk that ends at a position, it starts at one. -/
theorem position_of_room {entry : PartitionEntry} {disk : Volume} {length offset : Nat}
    (known : disk.length = some length) (ends : disk.offset + length ≤ positionBound)
    (within : offset < entry.room disk) : disk.offset + entry.offset < positionBound := by
  rw [room, known] at within
  dsimp only at within
  omega

/-- The part that an entry is cut to is made of it. Its start is moved to the last position only
where neither the part nor the disk has anything. -/
theorem madeInto_cut {entry : PartitionEntry} {disk : Volume} (told : disk.Told)
    (starts : entry.offset < positionBound) : entry.MadeInto disk (entry.cut disk) := by
  have length : (entry.cut disk).length = some (entry.room disk) := by
    unfold cut Volume.sub room
    cases disk.length <;> rfl
  refine ⟨rfl, rfl, length, fun offset wanted within => ?_, fun offset wanted ended => ?_⟩
  · rw [Volume.readAt_eq, Volume.readAt_eq]
    by_cases position : disk.offset + entry.offset < positionBound ∨ 0 < offset
    · have clipped : Window.clip (entry.cut disk).length offset wanted =
          min wanted (entry.room disk - offset) := by rw [length, Window.clip]
      rw [← clipped]
      exact disk.content_sub position entry.length _ wanted
    · have moved : (entry.cut disk).offset = positionBound - 1 := by
        unfold cut Volume.sub
        dsimp only
        omega
      rcases told with whole | ⟨outer, known, ends⟩ | spare
      · omega
      · have before := position_of_room known ends within
        omega
      · have spare : (entry.cut disk).source.SpareLast := spare
        rw [Volume.content_last spare moved, disk.content_beyond (by omega)]
  · exact Volume.readAt_ended length ended wanted

end PartitionEntry

namespace Partition

variable {volume : Volume} {sectorSize left slot : Nat} {entries : List PartitionEntry}

/-- A product of two numbers of 32 bits fits 64. -/
theorem product_lt (count : UInt32) {size : Nat} (small : size < 2 ^ 32) :
    count.toNat * size < 2 ^ 64 :=
  calc
    count.toNat * size < 2 ^ 32 * 2 ^ 32 := Nat.mul_lt_mul'' count.toNat_lt small
    _ = 2 ^ 64 := by decide

/-- Entries of an Apple map count map blocks in 32 bits, and these are not large. The induction is
on how many more entries may be read. -/
theorem sound_of_appleEntries {blockSize index claimed : Nat} (small : blockSize < 2 ^ 32)
    (read : (appleEntries volume.window blockSize left index claimed :
      ExceptT Error Id (List PartitionEntry)).run = .ok entries) :
    ∀ entry ∈ entries, entry.Sound volume .applePartitionMap := by
  induction left generalizing index claimed entries with
  | zero =>
    cases read
    simp
  | succ left inductionHypothesis =>
    rw [appleEntries] at read
    split at read
    · cases read
      simp
    obtain ⟨block, -, read⟩ := run_bind_eq_ok.mp read
    cases block with
    | none =>
      cases read
      simp
    | some block =>
      obtain ⟨entry, -, read⟩ := run_bind_eq_ok.mp read
      split at read
      · cases read
        simp
      obtain ⟨later, found, ⟨⟩⟩ := run_bind_eq_ok.mp read
      rintro part (_ | ⟨_, behind⟩)
      · exact ⟨rfl, product_lt entry.startBlock small, product_lt entry.blockCount small, nofun⟩
      · exact inductionHypothesis found part behind

/-- The entries of the Apple map of a disk are sound: the size of a map block is a number of 16
bits. -/
theorem sound_of_readApple
    (read : (readApple volume.window : ExceptT Error Id (Option (List PartitionEntry))).run =
      .ok (some entries)) : ∀ entry ∈ entries, entry.Sound volume .applePartitionMap := by
  rw [readApple] at read
  obtain ⟨block, -, read⟩ := run_bind_eq_ok.mp read
  cases block with
  | none => cases read
  | some block =>
    obtain ⟨descriptor, -, read⟩ := run_bind_eq_ok.mp read
    split at read
    · cases read
    obtain ⟨found, appleRead, read⟩ := run_bind_eq_ok.mp read
    have small : (if descriptor.blockSize = 0 then 512 else descriptor.blockSize.toNat) < 2 ^ 32 := by
      have word := descriptor.blockSize.toNat_lt
      split <;> omega
    cases found with
    | nil => cases read
    | cons first later =>
      cases read
      exact sound_of_appleEntries small appleRead

/-- What is told of where a GUID entry lies keeps to the positions and to the disk. -/
theorem guidExtent_bounds {first last start length : Nat} {diskLength : Option Nat}
    (found : guidExtent first last sectorSize diskLength = some (start, length)) :
    start + length < positionBound ∧ ∀ outer, diskLength = some outer → start + length ≤ outer := by
  unfold guidExtent at found
  dsimp only at found
  split at found
  · cases found
  split at found
  · cases found
  split at found
  · cases found
  next told =>
    cases diskLength with
    | none =>
      obtain ⟨⟩ := found
      exact ⟨Nat.not_le.mp told, nofun⟩
    | some disk =>
      dsimp only at found
      split at found
      · cases found
      next inside =>
        obtain ⟨⟩ := found
        refine ⟨Nat.not_le.mp told, ?_⟩
        rintro outer ⟨⟩
        exact Nat.not_lt.mp inside

/-- Entries of a GUID table lie on their disk. The induction is on how many slots are left. -/
theorem sound_of_guidEntries {table entrySize : Nat}
    (read : (guidEntries volume.window sectorSize table entrySize left slot :
      ExceptT Error Id (List PartitionEntry)).run = .ok entries) :
    ∀ entry ∈ entries, entry.Sound volume .guidPartitionTable := by
  induction left generalizing slot entries with
  | zero =>
    cases read
    simp
  | succ left inductionHypothesis =>
    rw [guidEntries] at read
    split at read
    · cases read
      simp
    obtain ⟨block, -, read⟩ := run_bind_eq_ok.mp read
    cases block with
    | none =>
      cases read
      simp
    | some block =>
      obtain ⟨entry, -, read⟩ := run_bind_eq_ok.mp read
      split at read
      · exact inductionHypothesis read
      split at read
      · exact inductionHypothesis read
      next start length fits =>
        obtain ⟨later, found, ⟨⟩⟩ := run_bind_eq_ok.mp read
        obtain ⟨told, inside⟩ := guidExtent_bounds fits
        have bound : positionBound = 2 ^ 64 := rfl
        rintro part (_ | ⟨_, behind⟩)
        · exact ⟨rfl, by dsimp only [GuidEntry.partition]; omega,
            by dsimp only [GuidEntry.partition]; omega, fun _ => ⟨by rwa [← bound], inside⟩⟩
        · exact inductionHypothesis found part behind

/-- The entries of the GUID map of a disk are sound. -/
theorem sound_of_readGuid
    (read : (readGuid volume.window sectorSize :
      ExceptT Error Id (Option (List PartitionEntry))).run = .ok (some entries)) :
    ∀ entry ∈ entries, entry.Sound volume .guidPartitionTable := by
  rw [readGuid] at read
  obtain ⟨block, -, read⟩ := run_bind_eq_ok.mp read
  cases block with
  | none => cases read
  | some block =>
    obtain ⟨header, -, read⟩ := run_bind_eq_ok.mp read
    split at read
    · cases read
    dsimp only at read
    split at read
    · cases read
    rw [ExceptT.run_map] at read
    obtain ⟨found, guidRead, ⟨⟩⟩ := map_eq_ok.mp read
    exact sound_of_guidEntries guidRead

/-- Entries of a boot record count sectors in 32 bits. The induction is on how many slots are
left. -/
theorem sound_of_bootEntries {block : Bytes} (small : sectorSize < 2 ^ 32)
    (read : bootEntries block sectorSize left slot = .ok (some entries)) :
    ∀ entry ∈ entries, entry.Sound volume .masterBootRecord := by
  induction left generalizing slot entries with
  | zero =>
    cases read
    simp
  | succ left inductionHypothesis =>
    rw [bootEntries] at read
    obtain ⟨entry, -, read⟩ := bind_eq_ok.mp read
    split at read
    · exact inductionHypothesis read
    split at read
    · cases read
    obtain ⟨later, found, read⟩ := bind_eq_ok.mp read
    cases later with
    | none => cases read
    | some later =>
      obtain ⟨⟩ := read
      rintro part (_ | ⟨_, behind⟩)
      · exact ⟨rfl, product_lt entry.lbaStart small, product_lt entry.sectorCount small, nofun⟩
      · exact inductionHypothesis found part behind

/-- The entries of the boot record of a disk are sound. -/
theorem sound_of_readBoot (small : sectorSize < 2 ^ 32)
    (read : (readBoot volume.window sectorSize :
      ExceptT Error Id (Option (List PartitionEntry))).run = .ok (some entries)) :
    ∀ entry ∈ entries, entry.Sound volume .masterBootRecord := by
  rw [readBoot] at read
  obtain ⟨block, -, read⟩ := run_bind_eq_ok.mp read
  cases block with
  | none => cases read
  | some block =>
    dsimp only at read
    split at read
    · cases read
    obtain ⟨found, bootRead, read⟩ := run_bind_eq_ok.mp read
    cases found with
    | none => cases read
    | some found =>
      cases found with
      | nil => cases read
      | cons first later =>
        cases read
        exact sound_of_bootEntries small bootRead

end Partition

/-- The entries of the map of a disk are sound, of whatever kind the map is. -/
theorem Volume.sound_of_partitionMap? {volume : Volume} (small : volume.sectorSize < 2 ^ 32)
    {map : PartitionMap}
    (found : (volume.partitionMap? : ExceptT Error Id (Option PartitionMap)).run = .ok (some map)) :
    ∀ entry ∈ map.entries, entry.Sound volume map.scheme := by
  rw [partitionMap?] at found
  obtain ⟨guid, guidRead, found⟩ := run_bind_eq_ok.mp found
  cases guid with
  | some entries =>
    cases found
    exact Partition.sound_of_readGuid guidRead
  | none =>
    obtain ⟨apple, appleRead, found⟩ := run_bind_eq_ok.mp found
    cases apple with
    | some entries =>
      cases found
      exact Partition.sound_of_readApple appleRead
    | none =>
      obtain ⟨boot, bootRead, found⟩ := run_bind_eq_ok.mp found
      cases boot with
      | some entries =>
        cases found
        exact Partition.sound_of_readBoot small bootRead
      | none => cases found

/-- What is found of the map of a volume, or why it cannot be told. -/
def Volume.mapFound (volume : Volume) : Except Error (Option PartitionMap) :=
  (volume.partitionMap? : ExceptT Error Id (Option PartitionMap)).run

namespace Disk

/-- Attach the part of one entry behind what is attached already. -/
def attach (disk : Disk) (entry : PartitionEntry) : Disk :=
  { disk with children := disk.children ++ [entry.cut disk.volume] }

/-- Attach the partitions of a disk in its place: the map is read, and then one part after the other
is attached. -/
def partitionInPlace : ExceptT Error (StateT Disk Id) Nat := do
  let disk ← getThe Disk
  match ← disk.volume.mapFound with
  | none => return 0
  | some map =>
    map.entries.forM fun entry => modifyThe Disk (·.attach entry)
    return map.entries.length

/-- Attaching changes neither the disk nor what is attached already, and adds one part for each
entry. -/
theorem foldl_attach (disk : Disk) (entries : List PartitionEntry) :
    entries.foldl attach disk =
      { disk with children := disk.children ++ entries.map (·.cut disk.volume) } := by
  induction entries generalizing disk with
  | nil => simp
  | cons entry later inductionHypothesis =>
    rw [List.foldl_cons, inductionHypothesis]
    simp [attach]

/-- Attaching one part after the other leaves what all of them come to. -/
theorem forM_attach (disk : Disk) (entries : List PartitionEntry) :
    (entries.forM fun entry => modifyThe Disk (·.attach entry) :
      ExceptT Error (StateT Disk Id) PUnit).run.run disk = (.ok ⟨⟩, entries.foldl attach disk) := by
  induction entries generalizing disk with
  | nil => rfl
  | cons entry later inductionHypothesis =>
    exact inductionHypothesis (disk.attach entry)

/-- What attaching in place comes to is decided by what is found of the map. -/
theorem partitionInPlace_run (disk : Disk) :
    partitionInPlace.run.run disk =
      match disk.volume.mapFound with
      | .error cause => (.error cause, disk)
      | .ok none => (.ok 0, disk)
      | .ok (some map) =>
        (.ok map.entries.length,
          { disk with children := disk.children ++ map.entries.map (·.cut disk.volume) }) := by
  rw [partitionInPlace, run_get]
  rcases disk.volume.mapFound with cause | _ | map
  · rfl
  · rfl
  · rw [run_known]
    dsimp only
    rw [run_bind, forM_attach, foldl_attach]
    rfl

/-- Attaching by value leaves the disk that attaching in place leaves behind. -/
theorem loadPartitions_run (disk : Disk) :
    (disk.loadPartitions : ExceptT Error Id (Disk × Nat)).run =
      (partitionInPlace.run.run disk).1.map fun count =>
        ((partitionInPlace.run.run disk).2, count) := by
  rw [partitionInPlace_run, loadPartitions, run_bind_direct]
  change Except.bind disk.volume.mapFound _ = _
  rcases disk.volume.mapFound with cause | _ | map
  all_goals rfl

/-- **Attaching partitions is faithful and leaves the rest alone.** Take any disk, with or without
parts that were attached before. If its map cannot be read, this is the error, and the disk stays as
it was; if it has none, nothing is attached. Otherwise what was attached before stays, and one part
is attached for each entry of the map, in order: it says what the entry says, lies one deeper, and
reads as the disk does between the bounds of the entry, as far as the disk reaches. 64 bits hold
these bounds. An entry that starts behind the end of a disk of known length becomes a part that
reads nothing, and an entry of a GUID map is never cut. The disk may lie anywhere in its source, as
long as no byte of it is asked for behind the last position. -/
theorem partitions_attached (disk : Disk) (small : disk.volume.sectorSize < 2 ^ 32)
    (told : disk.volume.Told) :
    let outcome := (partitionInPlace.run.run disk).1
    let after := (partitionInPlace.run.run disk).2
    (disk.loadPartitions : ExceptT Error Id (Disk × Nat)).run =
        (outcome.map fun count => (after, count)) ∧
      (∀ cause, disk.volume.mapFound = .error cause → outcome = .error cause ∧ after = disk) ∧
      (disk.volume.mapFound = .ok none → outcome = .ok 0 ∧ after = disk) ∧
      ∀ map, disk.volume.mapFound = .ok (some map) →
        outcome = .ok map.entries.length ∧ after.volume = disk.volume ∧
          (∃ parts, after.children = disk.children ++ parts ∧
            List.Forall₂ (fun entry part => entry.MadeInto disk.volume part) map.entries parts) ∧
          ∀ entry ∈ map.entries, entry.Sound disk.volume map.scheme ∧
            (∀ outer, disk.volume.length = some outer → outer ≤ entry.offset →
              entry.room disk.volume = 0) ∧
            (map.scheme = .guidPartitionTable → entry.room disk.volume = entry.length) := by
  intro outcome after
  refine ⟨disk.loadPartitions_run, ?_⟩
  simp only [outcome, after, partitionInPlace_run]
  refine ⟨?_, ?_, ?_⟩
  · intro cause failed
    rw [failed]
    exact ⟨rfl, rfl⟩
  · intro none_
    rw [none_]
    exact ⟨rfl, rfl⟩
  intro map found
  rw [found]
  have sound := Volume.sound_of_partitionMap? small found
  refine ⟨rfl, rfl, ⟨_, rfl, ?_⟩, fun entry member => ⟨sound entry member, ?_, ?_⟩⟩
  · rw [List.forall₂_map_right_iff, List.forall₂_same]
    exact fun entry member => PartitionEntry.madeInto_cut told (sound entry member).offset_lt
  · intro outer known beyond
    unfold PartitionEntry.room
    rw [known]
    dsimp only
    omega
  · intro guid
    obtain ⟨-, inside⟩ := (sound entry member).whole guid
    unfold PartitionEntry.room
    cases known : disk.volume.length with
    | none => rfl
    | some outer =>
      have within := inside outer known
      dsimp only
      omega

section Sample

/-- Nine sectors from the second one on for a file system, and one sector far behind. -/
def sampleBoot : Bytes :=
  List.replicate 446 0 ++
    Partition.BootEntry.layout.encode .littleEndian ⟨0, .replicate 3 0, 0xAF, .replicate 3 0, 1, 9⟩ ++
    List.replicate 16 0 ++
    Partition.BootEntry.layout.encode .littleEndian ⟨0, .replicate 3 0, 0x83, .replicate 3 0, 7, 1⟩ ++
    List.replicate 16 0 ++ [0x55, 0xAA]

/-- An image that holds the boot record behind four other bytes. -/
def sampleImage : Bytes := [7, 7, 7, 7] ++ sampleBoot ++ List.replicate 200 9

/-- A disk of six hundred bytes inside the image. Something is attached to it already. -/
def sampleDisk : Disk :=
  let volume := (Volume.ofImage ⟨sampleImage.toArray⟩).sub 4 600 .image
  ⟨volume, [volume.sub 0 512 .image]⟩

/-- The entry that goes on behind the disk. -/
def sampleLong : PartitionEntry := ⟨.masterBootRecord, 1, 512, 4608, "", "0xaf", true⟩

/-- The entry that starts behind the disk. -/
def sampleFar : PartitionEntry := ⟨.masterBootRecord, 3, 3584, 512, "", "0x83", false⟩

/-- The map of the disk. -/
def sampleMap : PartitionMap := ⟨.masterBootRecord, [sampleLong, sampleFar]⟩

/-- The disk lies in the image. -/
theorem sampleDisk_holds : sampleDisk.volume.source.Holds sampleImage := Source.holds_ofImage _

/-- This is the map that is found. -/
theorem sampleDisk_mapFound : sampleDisk.volume.mapFound = .ok (some sampleMap) := by
  have length : sampleImage.length ≤ positionBound := by decide +kernel
  rw [Volume.mapFound, Volume.partitionMap?, Volume.window_of_holds _ sampleDisk_holds length]
  decide +kernel

/-- The first part is cut where the disk ends, and the second one reads nothing. -/
theorem partitions_attached_sample :
    sampleDisk.volume.sectorSize < 2 ^ 32 ∧ sampleDisk.volume.Told ∧
      (partitionInPlace.run.run sampleDisk).1 = .ok 2 ∧
      ∃ old first second, sampleDisk.children = [old] ∧
        (partitionInPlace.run.run sampleDisk).2.children = [old, first, second] ∧
        first.readAt 80 100 = sampleDisk.volume.readAt 592 8 ∧ second.readAt 0 100 = .ok [] := by
  have small : sampleDisk.volume.sectorSize < 2 ^ 32 := by decide
  have known : sampleDisk.volume.length = some 600 := by decide +kernel
  have told : sampleDisk.volume.Told := .inr (.inl ⟨600, known, by decide +kernel⟩)
  have long : sampleLong.room sampleDisk.volume = 88 := by
    rw [PartitionEntry.room, known]
    decide
  have far : sampleFar.room sampleDisk.volume = 0 := by
    rw [PartitionEntry.room, known]
    decide
  obtain ⟨-, -, -, attached⟩ := partitions_attached sampleDisk small told
  obtain ⟨outcome, -, ⟨parts, children, made⟩, -⟩ := attached sampleMap sampleDisk_mapFound
  obtain ⟨first, _, firstMade, later, rfl⟩ := List.forall₂_cons_left_iff.mp made
  obtain ⟨second, _, secondMade, ended, rfl⟩ := List.forall₂_cons_left_iff.mp later
  obtain rfl := List.forall₂_nil_left_iff.mp ended
  refine ⟨small, told, outcome, _, first, second, rfl, children, ?_, ?_⟩
  · have inside := firstMade.inside 80 100 (by rw [long]; decide)
    rwa [long] at inside
  · exact secondMade.behind 0 100 (Nat.le_of_eq far)

end Sample

end Disk

end HfsPlus
