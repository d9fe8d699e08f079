import HfsPlus.Proofs.FileSystem.History
import HfsPlus.Proofs.Volume.Parts

/-!
# Nothing is learned from outside a volume

A file system lies in a volume, and a volume may be a part of a disk that others use too.
Block numbers, links between nodes and the place of an embedded volume all come unchecked
from the disk, and any of them may point outside the volume. None of them leads there: two
volumes of one length that deliver the same to every read inside that length hold the same
file system, or fail to hold one for the same reason, and answer every query alike. Where
they start, and what disks they were cut out of, does not matter.
-/

namespace HfsPlus

namespace Volume

/-- Two volumes have one length, and every read inside it delivers the same from both. -/
structure Alike (left right : Volume) (length : Nat) : Prop where
  leftLength : left.length = some length
  rightLength : right.length = some length
  content : ∀ offset wanted, offset + wanted ≤ length →
    left.content offset wanted = right.content offset wanted

/-- Volumes that show the same bytes are alike. -/
theorem Shows.alike {left right : Volume} {bytes : Bytes} (leftShows : left.Shows bytes)
    (rightShows : right.Shows bytes) : left.Alike right bytes.length where
  leftLength := leftShows.length
  rightLength := rightShows.length
  content offset wanted inside := by
    rw [leftShows.content _ _ inside, rightShows.content _ _ inside]

namespace Alike

variable {left right : Volume} {length : Nat} (alike : left.Alike right length)
include alike

/-- Reads that go beyond the length, or start there, deliver the same too. -/
theorem content_eq (offset wanted : Nat) :
    left.content offset wanted = right.content offset wanted := by
  rw [← content_clip left, ← content_clip right, alike.leftLength, alike.rightLength]
  by_cases inside : offset < length
  · exact alike.content offset _ (by simp only [Window.clip]; omega)
  · have nothing : Window.clip (some length) offset wanted = 0 := by
      simp only [Window.clip]
      omega
    rw [nothing, content_zero, content_zero]

/-- All that can be learned of both is the same. -/
theorem window_eq : left.window = right.window := by
  unfold window
  rw [alike.leftLength, alike.rightLength, funext fun offset => funext (alike.content_eq offset)]

/-- Parts that are cut out of both at one place are of one length. -/
theorem length_sub (start inner : Nat) (kind : VolumeKind) :
    (left.sub start inner kind).length = (right.sub start inner kind).length := by
  simp only [sub, alike.leftLength, alike.rightLength]

/-- Behind their first byte parts deliver the same, wherever both volumes start. -/
theorem content_sub_eq (start inner : Nat) (kind : VolumeKind) {offset : Nat}
    (behind : 0 < offset) (wanted : Nat) :
    (left.sub start inner kind).content offset wanted =
      (right.sub start inner kind).content offset wanted := by
  rw [content_sub left (.inr behind), content_sub right (.inr behind), alike.length_sub,
    alike.content_eq]

/-- If neither part starts beyond all positions, all that can be learned of both is the
same. -/
theorem window_sub_eq {start : Nat} (leftTold : left.offset + start < positionBound)
    (rightTold : right.offset + start < positionBound) (inner : Nat) (kind : VolumeKind) :
    (left.sub start inner kind).window = (right.sub start inner kind).window := by
  unfold window
  rw [alike.length_sub]
  refine congrArg _ (funext fun offset => funext fun wanted => ?_)
  rw [content_sub left (.inl leftTold), content_sub right (.inl rightTold), alike.length_sub,
    alike.content_eq]

end Alike

end Volume

namespace FileSystem

open Volume (Alike)

/-- Reading a header block depends on what is delivered at its place. -/
theorem readHeader_congr {left right : Window}
    (same : left.content volumeHeaderOffset volumeHeaderSize =
      right.content volumeHeaderOffset volumeHeaderSize) :
    (readHeader left : ExceptT Error Id Bytes).run = (readHeader right).run := by
  rw [readHeader, readHeader, Window.readExact_run, Window.readExact_run, same]

/-- A volume whose header block can be read does not start beyond all positions. -/
theorem told_of_readHeader {volume : Volume} {start length : Nat} {kind : VolumeKind}
    {block : Bytes}
    (read : (readHeader (volume.sub start length kind).window : ExceptT Error Id Bytes).run =
      .ok block) : volume.offset + start < positionBound := by
  obtain ⟨content, size⟩ := Window.readExact_eq_ok.mp read
  by_contra beyond
  have nothing : (volume.sub start length kind).content volumeHeaderOffset volumeHeaderSize =
      .ok [] := by
    rw [Volume.content_sub _ (.inr (by decide)), Volume.content_beyond _ (by omega)]
  obtain ⟨⟩ := content.symm.trans nothing
  exact absurd size (by decide)

/-- Alike volumes have the same header block in a part that is cut out of both. -/
theorem readHeader_sub {left right : Volume} {length : Nat} (alike : Alike left right length)
    (start inner : Nat) (kind : VolumeKind) :
    (readHeader (left.sub start inner kind).window : ExceptT Error Id Bytes).run =
      (readHeader (right.sub start inner kind).window).run :=
  readHeader_congr (alike.content_sub_eq start inner kind (by decide) volumeHeaderSize)

/-- The file system on a volume is found alike on alike volumes, and so is the reason why
there is none. -/
theorem mount_alike {left right : Volume} {length : Nat} (alike : Alike left right length) :
    (left.mount : ExceptT Error Id Mount).run.map Mount.system =
      (right.mount : ExceptT Error Id Mount).run.map Mount.system := by
  unfold Volume.mount
  rw [alike.window_eq]
  refine run_bind_map_congr rfl fun block _ => ?_
  dsimp only
  split
  · exact run_bind_map_congr rfl fun system _ => rfl
  refine run_bind_map_congr rfl fun directory _ => ?_
  split
  · exact run_bind_map_congr rfl fun _ refused => by cases refused
  rw [alike.leftLength, alike.rightLength]
  split
  · exact run_bind_map_congr rfl fun _ refused => by cases refused
  refine run_bind_map_congr rfl fun _ _ => ?_
  refine run_bind_map_congr (readHeader_sub alike _ _ _) fun block read => ?_
  have leftTold := told_of_readHeader read
  have rightTold := told_of_readHeader ((readHeader_sub alike _ _ _).symm.trans read)
  rw [alike.window_sub_eq leftTold rightTold]
  exact run_bind_map_congr rfl fun system _ => rfl

end FileSystem

/-- What is seen of a volume by mounting it and asking queries one after the other: what the
file system says of itself, and the replies. -/
def Volume.observed (volume : Volume) (capacity : Nat) (queries : List FileSystem.Query) :
    Except Error (VolumeHeader × VolumeSignature × Option Wrapper × List FileSystem.Reply) :=
  ((volume.mount : ExceptT Error Id Mount).run.map Mount.system).map fun system =>
    (system.header, system.signature, system.wrapper,
      (((system.remembering (m := Id)).answers queries).run (.empty capacity)).1)

/-- **Nothing is learned from outside a volume.** Let two volumes be of one length and
deliver the same to every read that lies inside it, wherever they start and whatever
sources they are parts of. Then both hold the same file system, of which all that can be
read is the same, or none for the same reason; and all queries, in any order and with any
number of nodes cached, get the same answers and the same errors from both. -/
theorem Volume.isolated {left right : Volume} {length : Nat} (alike : left.Alike right length) :
    (left.mount : ExceptT Error Id Mount).run.map Mount.system =
        (right.mount : ExceptT Error Id Mount).run.map Mount.system ∧
      ∀ (capacity : Nat) (queries : List FileSystem.Query),
        left.observed capacity queries = right.observed capacity queries := by
  have same := FileSystem.mount_alike alike
  refine ⟨same, fun capacity queries => ?_⟩
  rw [Volume.observed, Volume.observed, same]

section Sample

/-! A volume of three sectors that keeps what it says of its journal in the fifth. -/

/-- A file system that is not wrapped is described by the header block of its volume. -/
theorem FileSystem.mount_of_content {volume : Volume} {block : Bytes}
    (content : volume.content volumeHeaderOffset volumeHeaderSize = .ok block)
    (size : block.length = volumeHeaderSize) (plain : signatureOf block ≠ 0x4244) :
    (volume.mount : ExceptT Error Id Mount).run =
      (ofHeader volume.window block none : ExceptT Error Id FileSystem).run.map (⟨volume, ·⟩) := by
  have read : (readHeader volume.window : ExceptT Error Id Bytes).run = .ok block :=
    Window.readExact_eq_ok.mpr ⟨content, size⟩
  rw [Volume.mount, run_bind_direct, read]
  dsimp only [Except.bind]
  rw [if_pos plain, run_bind_direct]
  rfl

namespace Volume

/-- Nothing but what leads to the journal. -/
def sampleHeader : VolumeHeader :=
  { Stored.zero VolumeHeader with
    signature := 0x482B, blockSize := 512, attributes := journaledBit, journalInfoBlock := 4 }

/-- The three sectors. -/
def sampleBytes : Bytes := List.replicate 1024 0 ++ Stored.encode sampleHeader

/-- They are at the start of a disk that goes on behind them. -/
def sampleLeft : Volume :=
  (ofImage ⟨(sampleBytes ++ List.replicate 1024 1).toArray⟩).sub 0 1536 .embedded

/-- They are in a part of a part of a disk that ends with them. -/
def sampleRight : Volume :=
  ((ofImage ⟨([7, 7, 7] ++ sampleBytes).toArray⟩).sub 1 2000 .image).sub 2 1536 .embedded

/-- Three sectors have 1536 bytes. -/
theorem length_sampleBytes : sampleBytes.length = 1536 := by decide +kernel

/-- The first disk shows the sectors. -/
theorem sampleLeft_shows : sampleLeft.Shows sampleBytes := by
  have cut : ((sampleBytes ++ List.replicate 1024 1).drop 0).take 1536 = sampleBytes := by
    decide +kernel
  have told : (sampleBytes ++ List.replicate 1024 1).length ≤ positionBound := by
    rw [List.length_append, List.length_replicate, length_sampleBytes]
    decide
  exact cut ▸ (shows_ofImage told).sub (by decide) _ _

/-- So does the second one. -/
theorem sampleRight_shows : sampleRight.Shows sampleBytes := by
  have cut : (((([7, 7, 7] ++ sampleBytes).drop 1).take 2000).drop 2).take 1536 = sampleBytes := by
    decide +kernel
  have told : ([7, 7, 7] ++ sampleBytes).length ≤ positionBound := by
    rw [List.length_append, length_sampleBytes]
    decide
  exact cut ▸ ((shows_ofImage told).sub (by decide) _ _).sub (by decide) _ _

/-- So the disks read alike. -/
theorem sample_alike : sampleLeft.Alike sampleRight 1536 :=
  length_sampleBytes ▸ sampleLeft_shows.alike sampleRight_shows

/-- What is said of the journal lies behind the volume. -/
theorem sample_observed : sampleLeft.observed 4 [.journalInfo] matches
    .ok (_, _, _, [.journal (.error (.shortRead 2048 180 0))]) := by
  have inside : volumeHeaderOffset + volumeHeaderSize ≤ sampleBytes.length := by
    rw [length_sampleBytes]
    decide
  have front : (List.replicate 1024 (0 : UInt8)).length = volumeHeaderOffset :=
    List.length_replicate
  have size : (Stored.encode sampleHeader).length = volumeHeaderSize := by decide +kernel
  have shown := sampleLeft_shows.content _ _ inside
  rw [sampleBytes, List.drop_left' front, ← size, List.take_length, size] at shown
  rw [observed, FileSystem.mount_of_content shown size (by decide +kernel)]
  decide +kernel

/-- The fifth sector is not read, although one of the disks has it. -/
theorem isolated_sample :
    sampleLeft.Alike sampleRight 1536 ∧
      sampleLeft.source.gather (sampleLeft.offset + 2048) 1 ≠
        sampleRight.source.gather (sampleRight.offset + 2048) 1 ∧
      (sampleLeft.observed 4 [.journalInfo] matches
        .ok (_, _, _, [.journal (.error (.shortRead 2048 180 0))])) ∧
      sampleLeft.observed 4 [.journalInfo] = sampleRight.observed 4 [.journalInfo] :=
  ⟨sample_alike, by decide +kernel, sample_observed, (isolated sample_alike).2 4 [.journalInfo]⟩

end Volume

end Sample

end HfsPlus
