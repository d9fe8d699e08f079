import HfsPlus.Proofs.Code
import HfsPlus.Proofs.FileSystem.Isolation
import HfsPlus.Proofs.Structure
import HfsPlus.Proofs.Volume.Readable
import Mathlib.Algebra.Ring.Nat

/-!
# Which volumes hold a file system

A file system has a header block 1024 bytes behind the start of its volume. If a volume of the
older system is there instead, it may say where the volume of a file system is embedded in it. The
place comes unchecked from numbers of 16 and of 32 bits, and the part that it tells of is accepted
if it has some bytes and ends inside the volume. `Accepts` says of what volumes a file system is
found, and `Refuses` has one constructor for each cause why there is none. Where no read of a volume
fails, one of them holds, and mounting the volume comes to just that.
-/

namespace HfsPlus

/-- The two bytes that the header block of a volume starts with. -/
def VolumeSignature.mark : VolumeSignature → Bytes
  | hfs => [0x42, 0x44]
  | hfsPlus => [0x48, 0x2B]
  | hfsX => [0x48, 0x58]

/-- The number that these bytes are. -/
def VolumeSignature.number : VolumeSignature → UInt16
  | hfs => 0x4244
  | hfsPlus => 0x482B
  | hfsX => 0x4858

/-- A signature is spelled by the bytes of its number. -/
theorem VolumeSignature.bytes_number (variant : VolumeSignature) :
    Word.bytes variant.number = variant.mark := by
  cases variant <;> decide

/-- What a volume of the older system tells of the one embedded in it. -/
def MasterDirectoryBlock.wrapper (directory : MasterDirectoryBlock) : Wrapper :=
  ⟨directory.name, directory.embeddedOffset, directory.embeddedLength⟩

/-- Wherever an embedded volume is said to lie, 64 bits hold where it ends. -/
theorem MasterDirectoryBlock.end_lt (directory : MasterDirectoryBlock) :
    directory.embeddedOffset + directory.embeddedLength < positionBound := by
  have size := directory.allocBlockSize.toNat_lt
  have product : ∀ count : UInt16,
      count.toNat * directory.allocBlockSize.toNat ≤ 2 ^ 16 * 2 ^ 32 := fun count =>
    Nat.mul_le_mul (Nat.le_of_lt count.toNat_lt) (Nat.le_of_lt size)
  have first := product directory.embedExtent.startBlock
  have count := product directory.embedExtent.blockCount
  have start := directory.allocBlockStart.toNat_lt
  unfold embeddedOffset embeddedLength positionBound UInt64.size
  omega

namespace FileSystem

variable {window : Window} {block : Bytes} {wrapper : Option Wrapper}

/-- What is checked of a block size is that it is a power of two. -/
theorem isPowerOfTwo_iff {number : Nat} :
    isPowerOfTwo number = true ↔ ∃ exponent, number = 2 ^ exponent := by
  simp only [isPowerOfTwo, Bool.and_eq_true, bne_iff_ne, beq_iff_eq, Nat.one_shiftLeft]
  constructor
  · rintro ⟨-, power⟩
    exact ⟨_, power⟩
  · rintro ⟨exponent, rfl⟩
    exact ⟨Nat.ne_of_gt (Nat.two_pow_pos exponent), by rw [Nat.log2_two_pow]⟩

/-- A power of two that a word of 32 bits holds is half of what is too much for it, or less. -/
theorem le_of_isPowerOfTwo {blockSize : UInt32} (power : isPowerOfTwo blockSize.toNat = true) :
    blockSize.toNat ≤ 2 ^ 31 := by
  obtain ⟨exponent, power⟩ := isPowerOfTwo_iff.mp power
  have held : 2 ^ exponent < 2 ^ 32 := by
    rw [← power]
    exact blockSize.toNat_lt
  have small : exponent < 32 := (Nat.pow_lt_pow_iff_right (by decide)).mp held
  rw [power]
  exact Nat.pow_le_pow_right (by decide) (Nat.le_of_lt_succ small)

/-- A block carries a signature if it starts with its two bytes. -/
theorem mark_iff {number : UInt16} (starts : Word.bytes number <+: block)
    (variant : VolumeSignature) : variant.mark <+: block ↔ number = variant.number := by
  rw [← variant.bytes_number]
  constructor
  · exact Word.eq_of_prefix starts
  · rintro rfl
    exact starts

/-- No block carries two of them. -/
theorem mark_unique {left right : VolumeSignature} (starts : left.mark <+: block)
    (also : right.mark <+: block) : left = right := by
  rw [← left.bytes_number] at starts
  have same := (mark_iff starts right).mp also
  revert same
  cases left <;> cases right <;> decide

/-- So the signature of a block is told by the bytes that it starts with. -/
theorem ofCode_iff {number : UInt16} (starts : Word.bytes number <+: block)
    (variant : VolumeSignature) :
    Coded.ofCode (number.toNat : Int) = .ok variant ↔ variant.mark <+: block := by
  have code : Coded.code variant = (variant.number.toNat : Int) := by cases variant <;> rfl
  rw [Coded.ofCode_eq_ok, mark_iff starts, code, Int.natCast_inj, UInt16.toNat_inj, eq_comm]

/-- Every block starts with a number of two bytes. -/
theorem exists_starts (whole : block.length = volumeHeaderSize) :
    ∃ number : UInt16, Word.bytes number <+: block ∧ signatureOf block = number := by
  have room : 0 + Word.width UInt16 ≤ block.length := by
    rw [whole]
    decide
  obtain ⟨number, starts⟩ := Word.exists_prefix_drop UInt16 room
  exact ⟨number, starts, Word.ofBytes_take starts⟩

/-- Only the two signatures of file systems are accepted. -/
theorem ofHeader_foreign {number : UInt16} (starts : Word.bytes number <+: block)
    (plus : ¬ VolumeSignature.hfsPlus.mark <+: block)
    (caseSensitive : ¬ VolumeSignature.hfsX.mark <+: block) :
    (ofHeader window block wrapper : ExceptT Error Id FileSystem).run =
      .error (.notHfsPlus number) := by
  have signature : signatureOf block = number := Word.ofBytes_take starts
  unfold ofHeader
  rw [signature]
  dsimp only
  split
  next accepted => exact absurd ((ofCode_iff starts _).mp accepted) plus
  next accepted => exact absurd ((ofCode_iff starts _).mp accepted) caseSensitive
  next => rfl

/-- Behind such a signature the size of a block decides. -/
theorem ofHeader_marked {variant : VolumeSignature} (held : variant = .hfsPlus ∨ variant = .hfsX)
    (marked : variant.mark <+: block) {header : VolumeHeader}
    (stored : Stored.encode header <+: block) :
    (ofHeader window block wrapper : ExceptT Error Id FileSystem).run =
      if isPowerOfTwo header.blockSize.toNat then .ok ⟨window, header, variant, wrapper⟩
      else .error (.invalid (.blockSize header.blockSize.toNat)) := by
  have starts : Word.bytes variant.number <+: block := variant.bytes_number ▸ marked
  have signature : signatureOf block = variant.number := Word.ofBytes_take starts
  have accepted := (ofCode_iff starts variant).mpr marked
  have read : (Stored.read block : Except Error VolumeHeader) = .ok header :=
    Stored.read_eq_ok.mpr stored
  unfold ofHeader
  rw [signature, read]
  dsimp only
  rw [accepted]
  obtain rfl | rfl := held
  all_goals
    cases power : isPowerOfTwo header.blockSize.toNat with
    | true =>
      refine run_bind_eq_ok.mpr ⟨_, rfl, run_bind_eq_ok.mpr ⟨header, rfl, ?_⟩⟩
      rw [power]
      rfl
    | false =>
      refine run_bind_eq_error.mpr (.inr ⟨_, rfl, run_bind_eq_error.mpr (.inr ⟨header, rfl, ?_⟩)⟩)
      rw [power]
      rfl

/-- The file system on an image with its header. -/
def onImage (bytes : Bytes) (header : VolumeHeader) : FileSystem where
  window := ⟨some bytes.length, fun offset wanted =>
    .ok ((bytes.drop offset).take (Window.clip (some bytes.length) offset wanted))⟩
  header := header
  signature := .hfsPlus
  wrapper := none

end FileSystem

namespace Volume

variable (volume : Volume)

/-- The volume of a file system: all of the volume, or the part that a wrapper tells of. -/
def inside : Option Wrapper → Volume
  | none => volume
  | some wrapper => volume.sub wrapper.offset wrapper.length .embedded

/-- What can be read of the header block of a file system. It lies 1024 bytes behind the start of
the volume, or of the part that a wrapper tells of, beyond whose end nothing is read. -/
def headerRead : Option Wrapper → Except Error Bytes
  | none => volume.readAt 1024 512
  | some wrapper => volume.readAt (wrapper.offset + 1024) (min 512 (wrapper.length - 1024))

/-- A header block of which all bytes can be read. -/
structure HasHeader (wrapper : Option Wrapper) (block : Bytes) : Prop where
  read : volume.headerRead wrapper = .ok block
  whole : block.length = 512

/-- A volume of the older system with what it says of itself. -/
def Describes (directory : MasterDirectoryBlock) : Prop :=
  ∃ block, volume.HasHeader none block ∧ VolumeSignature.hfs.mark <+: block ∧
    Stored.encode directory <+: block

/-- Where the header block of a file system has to be: on the volume itself, unless that is one of
the older system, or else in the part that the volume tells of. -/
inductive Leads : Option Wrapper → Prop where
  | plain {block : Bytes} (header : volume.HasHeader none block)
    (other : ¬ VolumeSignature.hfs.mark <+: block) : Leads none
  | wrapped {directory : MasterDirectoryBlock} (describes : volume.Describes directory)
    (embeds : directory.embedSignature = 0x482B) (some_ : 0 < directory.embeddedLength)
    (within : ∀ outer, volume.length = some outer →
      directory.embeddedOffset + directory.embeddedLength ≤ outer) :
    Leads (some directory.wrapper)

/-- A file system is found. -/
structure Accepts (wrapper : Option Wrapper) (header : VolumeHeader) (variant : VolumeSignature) :
    Prop where
  leads : volume.Leads wrapper
  stored : volume.HasHeader wrapper (Stored.encode header)
  held : variant = .hfsPlus ∨ variant = .hfsX
  marked : variant.mark <+: Stored.encode header
  power : ∃ exponent, header.blockSize.toNat = 2 ^ exponent

/-- Why there is no file system, in the order in which it is found out. -/
inductive Refuses : Error → Prop where
  /-- There are too few bytes for a header block. -/
  | short {bytes : Bytes} (read : volume.headerRead none = .ok bytes)
    (few : bytes.length < 512) : Refuses (.shortRead 1024 512 bytes.length)
  /-- A volume of the older system has no file system embedded in it. -/
  | classic {directory : MasterDirectoryBlock} (describes : volume.Describes directory)
    (other : directory.embedSignature ≠ 0x482B) : Refuses (.notHfsPlus 0x4244)
  /-- What is embedded has no bytes, or does not end inside the volume. -/
  | overrun {directory : MasterDirectoryBlock} (describes : volume.Describes directory)
    (embeds : directory.embedSignature = 0x482B)
    (outside : directory.embeddedLength = 0 ∨ ∃ outer, volume.length = some outer ∧
      outer < directory.embeddedOffset + directory.embeddedLength) :
    Refuses (.wrapperOverrun directory.embeddedOffset directory.embeddedLength volume.length)
  /-- What is embedded has too few bytes for a header block. -/
  | embeddedShort {wrapper : Wrapper} {bytes : Bytes} (leads : volume.Leads (some wrapper))
    (read : volume.headerRead (some wrapper) = .ok bytes) (few : bytes.length < 512) :
    Refuses (.shortRead 1024 512 bytes.length)
  /-- The header block is none of a file system. -/
  | foreign {wrapper : Option Wrapper} {block : Bytes} {number : UInt16}
    (leads : volume.Leads wrapper) (header : volume.HasHeader wrapper block)
    (starts : Word.bytes number <+: block) (plus : ¬ VolumeSignature.hfsPlus.mark <+: block)
    (caseSensitive : ¬ VolumeSignature.hfsX.mark <+: block) : Refuses (.notHfsPlus number)
  /-- The size of a block is zero, or no power of two. -/
  | blockSize {wrapper : Option Wrapper} {header : VolumeHeader} {variant : VolumeSignature}
    (leads : volume.Leads wrapper) (stored : volume.HasHeader wrapper (Stored.encode header))
    (held : variant = .hfsPlus ∨ variant = .hfsX) (marked : variant.mark <+: Stored.encode header)
    (odd : ¬ ∃ exponent, header.blockSize.toNat = 2 ^ exponent) :
    Refuses (.invalid (.blockSize header.blockSize.toNat))

variable {volume}

section Rules

variable {wrapper : Option Wrapper} {bytes : Bytes}

/-- The part that a wrapper tells of is not cut. -/
theorem length_inside {wrapper : Wrapper} (leads : volume.Leads (some wrapper)) :
    (volume.inside (some wrapper)).length = some wrapper.length := by
  obtain _ | ⟨-, -, -, within⟩ := leads
  unfold inside sub
  dsimp only
  cases known : volume.length with
  | none => rfl
  | some outer =>
    have ends := within outer known
    simp only [MasterDirectoryBlock.wrapper, Option.some.injEq]
    omega

/-- Behind its first byte the part reads as the volume does at its place. -/
theorem readAt_inside {wrapper : Wrapper} (leads : volume.Leads (some wrapper)) {position : Nat}
    (told : volume.offset + wrapper.offset < positionBound ∨ 0 < position) (wanted : Nat) :
    (volume.inside (some wrapper)).readAt position wanted =
      volume.readAt (wrapper.offset + position) (min wanted (wrapper.length - position)) := by
  have unclipped : (volume.sub wrapper.offset wrapper.length .embedded).length = _ :=
    length_inside leads
  rw [readAt_eq, readAt_eq, inside, content_sub volume told, unclipped]
  rfl

/-- A header block is read from its place. -/
theorem content_inside (leads : volume.Leads wrapper) :
    (volume.inside wrapper).content volumeHeaderOffset volumeHeaderSize =
      volume.headerRead wrapper := by
  rw [← readAt_eq]
  cases wrapper with
  | none => rfl
  | some wrapper => exact readAt_inside leads (.inr (by decide)) volumeHeaderSize

/-- A header block of which all bytes can be read is read. -/
theorem readHeader_eq_ok (leads : volume.Leads wrapper) (header : volume.HasHeader wrapper bytes) :
    (FileSystem.readHeader (volume.inside wrapper).window : ExceptT Error Id Bytes).run =
      .ok bytes :=
  Window.readExact_eq_ok.mpr ⟨(content_inside leads).trans header.read, header.whole⟩

/-- One that is cut is not. -/
theorem readHeader_eq_short {window : Window}
    (read : window.content volumeHeaderOffset volumeHeaderSize = .ok bytes)
    (few : bytes.length < 512) :
    (FileSystem.readHeader window : ExceptT Error Id Bytes).run =
      .error (.shortRead 1024 512 bytes.length) := by
  have cut : ¬ bytes.length = volumeHeaderSize := Nat.ne_of_lt few
  rw [FileSystem.readHeader, Window.readExact_run, read]
  dsimp only [Except.bind]
  rw [if_neg cut]
  rfl

/-- On a volume of the older system it depends on what that tells of itself. -/
theorem mount_of_describes {directory : MasterDirectoryBlock}
    (describes : volume.Describes directory) :
    (volume.mount : ExceptT Error Id Mount).run =
      if directory.embedSignature ≠ 0x482B then .error (.notHfsPlus 0x4244)
      else if directory.embeddedLength = 0 ∨ volume.length.any
          (· < directory.embeddedOffset + directory.embeddedLength) then
        .error (.wrapperOverrun directory.embeddedOffset directory.embeddedLength volume.length)
      else
        let part := volume.inside (some directory.wrapper)
        (FileSystem.readHeader part.window : ExceptT Error Id Bytes).run.bind fun block =>
          (FileSystem.ofHeader part.window block (some directory.wrapper) :
            ExceptT Error Id FileSystem).run.map (⟨part, ·⟩) := by
  obtain ⟨block, header, marked, stored⟩ := describes
  have read : (FileSystem.readHeader volume.window : ExceptT Error Id Bytes).run = .ok block :=
    Window.readExact_eq_ok.mpr ⟨(readAt_eq ..).symm.trans header.read, header.whole⟩
  have signature : FileSystem.signatureOf block = 0x4244 := Word.ofBytes_take marked
  have decoded : (Stored.read block : Except Error MasterDirectoryBlock) = .ok directory :=
    Stored.read_eq_ok.mpr stored
  rw [Volume.mount, run_bind_direct, read]
  dsimp only [Except.bind]
  rw [signature, decoded, if_neg (not_not.mpr rfl)]
  refine (run_bind_direct ..).trans ?_
  change (ExceptT.run (if directory.embedSignature ≠ 0x482B then _ else _)) = _
  split
  · rfl
  split
  · rfl
  refine (run_bind_direct ..).trans ?_
  refine (run_bind_direct ..).trans (congrArg (Except.bind _) (funext fun block => ?_))
  exact run_bind_direct ..

/-- Whether what is embedded lies outside the volume is told by its length, if that is known. -/
theorem overruns_iff {directory : MasterDirectoryBlock} :
    (directory.embeddedLength = 0 ∨ volume.length.any
        (· < directory.embeddedOffset + directory.embeddedLength) = true) ↔
      directory.embeddedLength = 0 ∨ ∃ outer, volume.length = some outer ∧
        outer < directory.embeddedOffset + directory.embeddedLength := by
  simp only [Option.any_eq_true, decide_eq_true_eq]

/-- **Mounting follows the lead** to a header block, and to nothing behind it. -/
theorem mount_of_leads (leads : volume.Leads wrapper) :
    (volume.mount : ExceptT Error Id Mount).run =
      (FileSystem.readHeader (volume.inside wrapper).window : ExceptT Error Id Bytes).run.bind
        fun block => (FileSystem.ofHeader (volume.inside wrapper).window block wrapper :
          ExceptT Error Id FileSystem).run.map (⟨volume.inside wrapper, ·⟩) := by
  cases leads with
  | @plain block header other =>
    obtain ⟨number, starts, signature⟩ := FileSystem.exists_starts header.whole
    have plain : FileSystem.signatureOf block ≠ 0x4244 := fun same =>
      other ((FileSystem.mark_iff starts .hfs).mpr (signature.symm.trans same))
    have content : volume.content volumeHeaderOffset volumeHeaderSize = .ok block :=
      (readAt_eq ..).symm.trans header.read
    rw [FileSystem.mount_of_content content header.whole plain,
      readHeader_eq_ok (.plain header other) header]
    rfl
  | wrapped describes embeds some_ within =>
    have lies := mt overruns_iff.mp <| not_or.mpr ⟨Nat.ne_of_gt some_,
      fun ⟨outer, known, beyond⟩ => Nat.not_le_of_lt beyond (within outer known)⟩
    rw [mount_of_describes describes, if_neg (not_not.mpr embeds), if_neg lies]

/-- Behind a header block that can be read its signature and its block size decide. -/
theorem mount_of_header (leads : volume.Leads wrapper) (header : volume.HasHeader wrapper bytes) :
    (volume.mount : ExceptT Error Id Mount).run =
      (FileSystem.ofHeader (volume.inside wrapper).window bytes wrapper :
        ExceptT Error Id FileSystem).run.map (⟨volume.inside wrapper, ·⟩) := by
  rw [mount_of_leads leads, readHeader_eq_ok leads header]
  rfl

/-- What is found of a volume that is accepted. -/
def found (volume : Volume) (wrapper : Option Wrapper) (header : VolumeHeader)
    (variant : VolumeSignature) : Mount :=
  ⟨volume.inside wrapper, ⟨(volume.inside wrapper).window, header, variant, wrapper⟩⟩

/-- A volume that is accepted is mounted. -/
theorem mount_of_accepts {header : VolumeHeader} {variant : VolumeSignature}
    (accepts : volume.Accepts wrapper header variant) :
    (volume.mount : ExceptT Error Id Mount).run = .ok (volume.found wrapper header variant) := by
  have power := FileSystem.isPowerOfTwo_iff.mpr accepts.power
  rw [mount_of_header accepts.leads accepts.stored,
    FileSystem.ofHeader_marked accepts.held accepts.marked (List.prefix_refl _), if_pos power]
  rfl

/-- An image with a header 1024 bytes behind its start is mounted as a whole. -/
theorem mount_ofImage {bytes : Bytes} {header : VolumeHeader} (told : bytes.length ≤ positionBound)
    (block : (bytes.drop 1024).take 512 = Stored.encode header)
    (marked : VolumeSignature.hfsPlus.mark <+: Stored.encode header)
    (power : FileSystem.isPowerOfTwo header.blockSize.toNat = true) :
    ∃ mount, ((ofImage ⟨bytes.toArray⟩).mount : ExceptT Error Id Mount).run = .ok mount ∧
      mount.volume = ofImage ⟨bytes.toArray⟩ ∧ mount.system = .onImage bytes header := by
  have shows := shows_ofImage told
  have window : (ofImage ⟨bytes.toArray⟩).window = (FileSystem.onImage bytes header).window := by
    rw [window_of_holds _ (Source.holds_ofImage _) told, shows.length]
    simp [ofImage, ofSource, FileSystem.onImage]
  have whole : (Stored.encode header).length = 512 := Stored.length_encode header
  have inside : 1024 + 512 ≤ bytes.length := by
    have length := congrArg List.length block
    rw [whole, List.length_take, List.length_drop] at length
    omega
  have stored : (ofImage ⟨bytes.toArray⟩).HasHeader none (Stored.encode header) :=
    ⟨((readAt_eq ..).trans (shows.content 1024 512 inside)).trans (congrArg Except.ok block), whole⟩
  have accepts : (ofImage ⟨bytes.toArray⟩).Accepts none header .hfsPlus :=
    { leads := .plain stored fun older => by cases FileSystem.mark_unique older marked
      stored := stored
      held := .inl rfl
      marked := marked
      power := FileSystem.isPowerOfTwo_iff.mp power }
  refine ⟨_, mount_of_accepts accepts, rfl, ?_⟩
  exact congrArg (fun window => (⟨window, header, .hfsPlus, none⟩ : FileSystem)) window

/-- A cause why there is no file system is the one that is told. -/
theorem mount_of_refuses {cause : Error} (refuses : volume.Refuses cause) :
    (volume.mount : ExceptT Error Id Mount).run = .error cause := by
  cases refuses with
  | short read few =>
    have content := (readAt_eq ..).symm.trans read
    rw [Volume.mount, run_bind_direct, readHeader_eq_short content few]
    rfl
  | classic describes other => rw [mount_of_describes describes, if_pos other]
  | overrun describes embeds outside =>
    rw [mount_of_describes describes, if_neg (not_not.mpr embeds),
      if_pos (overruns_iff.mpr outside)]
  | embeddedShort leads read few =>
    rw [mount_of_leads leads, readHeader_eq_short ((content_inside leads).trans read) few]
    rfl
  | foreign leads header starts plus caseSensitive =>
    rw [mount_of_header leads header, FileSystem.ofHeader_foreign starts plus caseSensitive]
    rfl
  | blockSize leads stored held marked odd =>
    have power := fun accepted => odd (FileSystem.isPowerOfTwo_iff.mp accepted)
    rw [mount_of_header leads stored,
      FileSystem.ofHeader_marked held marked (List.prefix_refl _), if_neg power]
    rfl

end Rules

/-- A header block can be read, or it is cut. -/
theorem header_or_short (reliable : volume.Reliable) (wrapper : Option Wrapper) :
    (∃ block, volume.HasHeader wrapper block) ∨
      ∃ bytes, volume.headerRead wrapper = .ok bytes ∧ bytes.length < 512 := by
  have delivered : ∃ bytes, volume.headerRead wrapper = .ok bytes ∧ bytes.length ≤ 512 := by
    cases wrapper with
    | none =>
      obtain ⟨bytes, read⟩ := reliable 1024 512
      exact ⟨bytes, read, length_of_readAt read⟩
    | some wrapper =>
      obtain ⟨bytes, read⟩ := reliable (wrapper.offset + 1024) (min 512 (wrapper.length - 1024))
      exact ⟨bytes, read, Nat.le_trans (length_of_readAt read) (Nat.min_le_left _ _)⟩
  obtain ⟨bytes, read, few⟩ := delivered
  obtain cut | whole := Nat.lt_or_eq_of_le few
  · exact .inr ⟨bytes, read, cut⟩
  · exact .inl ⟨bytes, read, whole⟩

/-- A lead is followed to a file system, or to a cause why there is none. -/
theorem accepts_or_refuses_of_leads {wrapper : Option Wrapper} {block : Bytes}
    (leads : volume.Leads wrapper) (header : volume.HasHeader wrapper block) :
    (∃ header variant, volume.Accepts wrapper header variant) ∨
      ∃ cause, volume.Refuses cause := by
  obtain ⟨number, starts, -⟩ := FileSystem.exists_starts header.whole
  obtain ⟨stored, rfl⟩ : ∃ stored : VolumeHeader, Stored.encode stored = block := by
    obtain ⟨stored, read⟩ := (Stored.structures_exact.2.1.1.whole block).mpr header.whole
    exact ⟨stored, Stored.decodeWhole?_eq_some.mp read⟩
  by_cases held : ∃ variant : VolumeSignature,
      (variant = .hfsPlus ∨ variant = .hfsX) ∧ variant.mark <+: Stored.encode stored
  · obtain ⟨variant, held, marked⟩ := held
    by_cases power : ∃ exponent, stored.blockSize.toNat = 2 ^ exponent
    · exact .inl ⟨stored, variant, leads, header, held, marked, power⟩
    · exact .inr ⟨_, .blockSize leads header held marked power⟩
  · exact .inr ⟨_, .foreign leads header starts (fun plus => held ⟨_, .inl rfl, plus⟩)
      fun caseSensitive => held ⟨_, .inr rfl, caseSensitive⟩⟩

/-- On a volume no read of which fails, there is a file system or a cause why there is none. -/
theorem accepts_or_refuses (reliable : volume.Reliable) :
    (∃ wrapper header variant, volume.Accepts wrapper header variant) ∨
      ∃ cause, volume.Refuses cause := by
  obtain ⟨block, header⟩ | ⟨bytes, read, few⟩ := header_or_short reliable none
  swap
  · exact .inr ⟨_, .short read few⟩
  by_cases old : VolumeSignature.hfs.mark <+: block
  swap
  · obtain accepts | refuses := accepts_or_refuses_of_leads (.plain header old) header
    · exact .inl ⟨none, accepts⟩
    · exact .inr refuses
  obtain ⟨directory, rest, read⟩ : ∃ (directory : MasterDirectoryBlock) (rest : Bytes),
      Stored.decode? block = some (directory, rest) := by
    refine Stored.decode?_isSome.mpr ?_
    rw [header.whole]
    decide
  have describes : volume.Describes directory :=
    ⟨block, header, old, rest, Layout.encode_of_decode _ _ _ _ _ read⟩
  by_cases embeds : directory.embedSignature = 0x482B
  swap
  · exact .inr ⟨_, .classic describes embeds⟩
  by_cases outside : directory.embeddedLength = 0 ∨ ∃ outer, volume.length = some outer ∧
      outer < directory.embeddedOffset + directory.embeddedLength
  · exact .inr ⟨_, .overrun describes embeds outside⟩
  obtain ⟨some_, within⟩ := not_or.mp outside
  have leads : volume.Leads (some directory.wrapper) :=
    .wrapped describes embeds (Nat.pos_of_ne_zero some_) fun outer known =>
      Nat.le_of_not_lt fun beyond => within ⟨outer, known, beyond⟩
  obtain ⟨block, header⟩ | ⟨bytes, read, few⟩ := header_or_short reliable (some directory.wrapper)
  · obtain accepts | refuses := accepts_or_refuses_of_leads leads header
    · exact .inl ⟨_, accepts⟩
    · exact .inr refuses
  · exact .inr ⟨_, .embeddedShort leads read few⟩

/-- The part in which a file system is found starts where the wrapper says. -/
theorem offset_inside {wrapper : Wrapper} {header : VolumeHeader} {variant : VolumeSignature}
    (accepts : volume.Accepts (some wrapper) header variant) :
    volume.offset + wrapper.offset < positionBound ∧
      (volume.inside (some wrapper)).offset = volume.offset + wrapper.offset := by
  have read : (FileSystem.readHeader
      (volume.sub wrapper.offset wrapper.length .embedded).window : ExceptT Error Id Bytes).run =
      .ok (Stored.encode header) := readHeader_eq_ok accepts.leads accepts.stored
  have told := FileSystem.told_of_readHeader read
  exact ⟨told, offset_sub volume told wrapper.length .embedded⟩

/-- **Mounting finds the file systems that are there, and no others.** On a volume no read of which
fails, a file system is found if the volume carries one or leads to one that it wraps, and otherwise
the first of the conditions that does not hold is told. The volume of a wrapped file system is just
the part that the wrapper tells of, from its first byte to its last, and no read of it goes beyond.
A volume of the older system inside a wrapper is not followed, and 64 bits hold where a part ends,
whatever numbers it is told by. -/
theorem mount_decided (reliable : volume.Reliable) :
    (∀ mount, (volume.mount : ExceptT Error Id Mount).run = .ok mount ↔
      ∃ wrapper header variant, volume.Accepts wrapper header variant ∧
        mount = volume.found wrapper header variant) ∧
      (∀ cause, (volume.mount : ExceptT Error Id Mount).run = .error cause ↔
        volume.Refuses cause) ∧
      (∀ wrapper header variant, volume.Accepts (some wrapper) header variant →
        let part := volume.inside (some wrapper)
        part.source = volume.source ∧ part.offset = volume.offset + wrapper.offset ∧
          part.length = some wrapper.length ∧
          ∀ position wanted, part.readAt position wanted =
            volume.readAt (wrapper.offset + position) (min wanted (wrapper.length - position))) ∧
      (∀ wrapper block, volume.Leads (some wrapper) → volume.HasHeader (some wrapper) block →
        VolumeSignature.hfs.mark <+: block →
        (volume.mount : ExceptT Error Id Mount).run = .error (.notHfsPlus 0x4244)) ∧
      ∀ wrapper, volume.Leads (some wrapper) →
        wrapper.offset + wrapper.length < positionBound := by
  refine ⟨fun mount => ⟨fun mounted => ?_, ?_⟩, fun cause => ⟨fun failed => ?_, mount_of_refuses⟩,
    ?_, ?_, ?_⟩
  · obtain ⟨wrapper, header, variant, accepts⟩ | ⟨cause, refuses⟩ := accepts_or_refuses reliable
    · obtain ⟨⟩ := mounted.symm.trans (mount_of_accepts accepts)
      exact ⟨wrapper, header, variant, accepts, rfl⟩
    · cases mounted.symm.trans (mount_of_refuses refuses)
  · rintro ⟨wrapper, header, variant, accepts, rfl⟩
    exact mount_of_accepts accepts
  · obtain ⟨wrapper, header, variant, accepts⟩ | ⟨other, refuses⟩ := accepts_or_refuses reliable
    · cases failed.symm.trans (mount_of_accepts accepts)
    · obtain ⟨⟩ := failed.symm.trans (mount_of_refuses refuses)
      exact refuses
  · intro wrapper header variant accepts part
    obtain ⟨told, starts⟩ := offset_inside accepts
    exact ⟨rfl, starts, length_inside accepts.leads,
      fun position wanted => readAt_inside accepts.leads (.inl told) wanted⟩
  · intro wrapper block leads header again
    exact mount_of_refuses <| .foreign leads header again
      (fun plus => nomatch FileSystem.mark_unique again plus)
      fun caseSensitive => nomatch FileSystem.mark_unique again caseSensitive
  · rintro wrapper (_ | _)
    exact MasterDirectoryBlock.end_lt _

section Sample

/-- The second of the blocks that start behind three sectors, and two more of them. -/
def sampleDirectory : MasterDirectoryBlock :=
  { Stored.zero MasterDirectoryBlock with
    signature := 0x4244, allocBlockStart := 3, allocBlockSize := 512, embedSignature := 0x482B,
    embedExtent := ⟨1, 3⟩ }

/-- A file system of three sectors behind four others. -/
def sampleWrapping : Bytes :=
  List.replicate 1024 0 ++ Stored.encode sampleDirectory ++ List.replicate 862 0 ++ sampleBytes

/-- An image that goes on behind them. -/
def sampleWrapped : Volume := .ofImage ⟨(sampleWrapping ++ [7, 7]).toArray⟩

/-- The image has 3586 bytes. -/
theorem length_sampleWrapping : (sampleWrapping ++ [7, 7]).length = 3586 := by decide +kernel

/-- The volume shows the image. -/
theorem sampleWrapped_shows : sampleWrapped.Shows (sampleWrapping ++ [7, 7]) :=
  shows_ofImage (by rw [length_sampleWrapping]; decide)

/-- Reads of it do not fail. -/
theorem sampleWrapped_reliable : sampleWrapped.Reliable :=
  reliable_of_holds (Source.holds_ofImage _) (by rw [length_sampleWrapping]; decide)

/-- The directory block tells of three sectors from the fifth one on. -/
theorem sampleDirectory_wrapper : sampleDirectory.wrapper = ⟨"", 2048, 1536⟩ := by decide +kernel

/-- A header block of the image is where its bytes are. -/
theorem sampleWrapped_header {wrapper : Option Wrapper} {offset : Nat} {block : Bytes}
    (place : sampleWrapped.headerRead wrapper = sampleWrapped.readAt offset 512)
    (inside : offset ≤ 3072)
    (bytes : ((sampleWrapping ++ [7, 7]).drop offset).take 512 = block) :
    sampleWrapped.HasHeader wrapper block where
  read := by
    have shown := sampleWrapped_shows.content offset 512 (by rw [length_sampleWrapping]; omega)
    rw [place, readAt_eq, shown, bytes]
  whole := by
    rw [← bytes, List.length_take, List.length_drop, length_sampleWrapping]
    omega

/-- What the image says of itself leads to the part. -/
theorem sampleWrapped_leads : sampleWrapped.Leads (some ⟨"", 2048, 1536⟩) := by
  have describes : sampleWrapped.Describes sampleDirectory :=
    ⟨_, sampleWrapped_header rfl (by decide : 1024 ≤ 3072) rfl, by decide +kernel,
      by decide +kernel⟩
  rw [← sampleDirectory_wrapper]
  refine .wrapped describes rfl (by decide +kernel) fun outer known => ?_
  obtain ⟨⟩ := known.symm.trans sampleWrapped_shows.length
  rw [length_sampleWrapping]
  decide +kernel

/-- The part is as long as it is said to be, although there is more of the image behind it. -/
theorem mount_decided_sample :
    sampleWrapped.Reliable ∧ ∃ mount,
      (sampleWrapped.mount : ExceptT Error Id Mount).run = .ok mount ∧
        mount.system.wrapper = some ⟨"", 2048, 1536⟩ ∧ mount.system.header = sampleHeader ∧
        mount.volume.offset = 2048 ∧ mount.volume.length = some 1536 := by
  have accepts : sampleWrapped.Accepts (some ⟨"", 2048, 1536⟩) sampleHeader .hfsPlus :=
    { leads := sampleWrapped_leads
      stored := sampleWrapped_header rfl (by decide : 3072 ≤ 3072) (by decide +kernel)
      held := .inl rfl
      marked := by decide +kernel
      power := ⟨9, by decide +kernel⟩ }
  obtain ⟨mounted, -, part, -⟩ := mount_decided sampleWrapped_reliable
  obtain ⟨-, offset, length, -⟩ := part _ _ _ accepts
  have start : sampleWrapped.offset + 2048 = 2048 := Nat.zero_add _
  exact ⟨sampleWrapped_reliable, _, (mounted _).mpr ⟨_, _, _, accepts, rfl⟩, rfl, rfl,
    offset.trans start, length⟩

end Sample

end Volume

end HfsPlus
