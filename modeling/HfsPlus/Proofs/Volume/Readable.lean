import HfsPlus.Partition.Map
import HfsPlus.Proofs.Volume.Nesting

/-!
# What stands on a volume

Where no read of a volume fails, all that a reader can learn of a stretch of it is whether the
whole stretch can be read, and the bytes that stand there. What can be told then of a fixed
structure is its value, because the structure is read wherever there are enough bytes for it.
-/

namespace HfsPlus

namespace Source

/-- No more is gathered than is wanted. The induction follows the deliveries. -/
theorem length_of_gatherBehind {source : Source} {start wanted : Nat} {collected : List Bytes}
    {bytes : Bytes} (gathered : source.gatherBehind start wanted collected = .ok bytes) :
    bytes.length ≤ collected.reverse.flatten.length + wanted := by
  fun_induction source.gatherBehind start wanted collected with
  | case1 start collected =>
    cases gathered
    rw [assemble_eq]
    omega
  | case2 start wanted collected more error failed => cases gathered
  | case3 start wanted collected more ended =>
    cases gathered
    rw [assemble_eq]
    omega
  | case4 start wanted collected more first others delivered front inductionHypothesis =>
    have within : front.length ≤ wanted := by
      simp only [front, List.length_cons, List.length_take]
      omega
    have behind := inductionHypothesis gathered
    simp only [List.reverse_cons, List.flatten_append, List.flatten_singleton,
      List.length_append] at behind
    omega

end Source

namespace Volume

variable {volume : Volume}

/-- No read of a volume fails. -/
def Reliable (volume : Volume) : Prop :=
  ∀ offset wanted, ∃ bytes, volume.readAt offset wanted = .ok bytes

/-- Over a source that holds some bytes whose positions can be told, no read fails. -/
theorem reliable_of_holds {bytes : Bytes} (holds : volume.source.Holds bytes)
    (told : bytes.length ≤ positionBound) : volume.Reliable :=
  fun offset wanted =>
    ⟨_, (readAt_eq volume offset wanted).trans (volume.content_of_holds holds told offset wanted)⟩

/-- The bytes of a stretch of a volume, if all of them can be read. -/
def stretch? (volume : Volume) (offset count : Nat) : Option Bytes :=
  (volume.readAt offset count).toOption.filter (·.length = count)

/-- The structure that stands at the start of a stretch of a volume, if all of the stretch can be
read. -/
def stored? (volume : Volume) {α : Type} (order : ByteOrder) (layout : Layout α)
    (offset count : Nat) : Option α :=
  (volume.stretch? offset count).bind fun bytes => (layout.decode order bytes).map (·.1)

/-- A read delivers no more than is wanted. -/
theorem length_of_readAt {offset wanted : Nat} {bytes : Bytes}
    (delivered : volume.readAt offset wanted = .ok bytes) : bytes.length ≤ wanted := by
  rw [readAt_eq, content_eq] at delivered
  split at delivered
  · cases delivered
    exact Nat.zero_le _
  · have gathered := Source.length_of_gatherBehind delivered
    have clipped : Window.clip volume.length offset wanted ≤ wanted := by
      cases volume.length with
      | none => exact Nat.le_refl _
      | some length => exact Nat.min_le_left _ _
    simp only [List.reverse_nil, List.flatten_nil, List.length_nil] at gathered
    omega

/-- A stretch can be read if a read delivers all of it. -/
theorem stretch?_eq_some {offset count : Nat} {bytes : Bytes} :
    volume.stretch? offset count = some bytes ↔
      volume.readAt offset count = .ok bytes ∧ bytes.length = count := by
  rw [stretch?, Option.filter_eq_some_iff, decide_eq_true_eq]
  exact and_congr_left fun _ => mem_toOption

/-- The numbers of a volume are such as every volume has: its length is a number of 64 bits, and the
size of its sectors a number of 32 bits that is not zero. -/
structure WellSized (volume : Volume) : Prop where
  length : ∀ length, volume.length = some length → length < positionBound
  sector : 0 < volume.sectorSize
  sectorWord : volume.sectorSize < UInt32.size

/-- A whole source makes such a volume. -/
theorem wellSized_ofSource {source : Source} {sectorSize : Nat}
    (size : source.size < positionBound) (word : sectorSize < UInt32.size) :
    (ofSource source sectorSize).WellSized := by
  refine ⟨fun length known => ?_, ?_, ?_⟩
  · unfold ofSource at known
    dsimp only at known
    split at known
    · cases known
    · cases known
      exact size
  all_goals
    unfold ofSource defaultSectorSize
    dsimp only
    split
    · decide
    · omega

/-- A volume that is the whole of a source shows the bytes that the source holds. -/
theorem shows_of_holds {bytes : Bytes} (holds : volume.source.Holds bytes)
    (told : bytes.length ≤ positionBound) (start : volume.offset = 0)
    (length : volume.length = some bytes.length) : volume.Shows bytes where
  length := length
  content offset wanted inside := by
    have clipped : Window.clip volume.length offset wanted = wanted := by
      rw [length, Window.clip]
      omega
    rw [volume.content_of_holds holds told, start, Nat.zero_add, clipped]

/-- A volume that shows some bytes has each stretch of them. -/
theorem Shows.stretch? {bytes : Bytes} (shows : volume.Shows bytes) {offset count : Nat}
    (inside : offset + count ≤ bytes.length) :
    volume.stretch? offset count = some ((bytes.drop offset).take count) := by
  refine stretch?_eq_some.mpr ⟨(readAt_eq ..).trans (shows.content _ _ inside), ?_⟩
  rw [List.length_take, List.length_drop]
  omega

/-- Nothing can be read beyond all positions. -/
theorem stretch?_beyond {offset count : Nat} (beyond : positionBound ≤ offset)
    (some_ : 0 < count) : volume.stretch? offset count = none := by
  rw [stretch?, readAt_eq, content_beyond volume (by omega), Except.toOption, Option.filter_some,
    if_neg]
  simpa using Nat.ne_of_lt some_

/-- Reading all of a stretch, if there is as much, finds the bytes that stand there. -/
theorem readWhole?_run (reliable : volume.Reliable) (offset count : Nat) :
    (volume.window.readWhole? offset count : ExceptT Error Id (Option Bytes)).run =
      .ok (volume.stretch? offset count) := by
  obtain ⟨bytes, delivered⟩ := reliable offset count
  have read : (volume.window.read offset count : ExceptT Error Id Bytes).run = .ok bytes :=
    delivered
  rw [Window.readWhole?, run_bind_direct, read, stretch?, delivered, Except.toOption,
    Option.filter_some]
  simp only [decide_eq_true_eq]
  rfl

end Volume

/-- A structure is read from bytes that are enough for it. -/
theorem Partition.decode_of_le {α : Type} (order : ByteOrder) (layout : Layout α) {bytes : Bytes}
    (enough : layout.size ≤ bytes.length) :
    ∃ value, decode order layout bytes = .ok value ∧
      (layout.decode order bytes).map (·.1) = some value := by
  obtain ⟨value, rest, read, -⟩ := layout.decode_of_le order bytes enough
  exact ⟨value, by rw [decode, read], by rw [read]; rfl⟩

/-- **Reading a structure off a stretch** finds it if the stretch can be read, and what follows is
told whether it was. It never fails. -/
theorem Volume.run_stored {volume : Volume} (reliable : volume.Reliable) {α β : Type}
    (order : ByteOrder) (layout : Layout α) {offset count : Nat} (enough : layout.size ≤ count)
    {next : Option Bytes → ExceptT Error Id β} (missing : Except Error β)
    (found : α → Except Error β) (absent : (next none).run = missing)
    (present : ∀ block value, Partition.decode order layout block = .ok value →
      (next (some block)).run = found value) :
    (volume.window.readWhole? offset count >>= next).run =
      match volume.stored? order layout offset count with
      | some value => found value
      | none => missing := by
  rw [run_bind_direct, readWhole?_run reliable, stored?]
  cases there : volume.stretch? offset count with
  | none => exact absent
  | some block =>
    obtain ⟨-, whole⟩ := stretch?_eq_some.mp there
    obtain ⟨value, decoded, same⟩ :=
      Partition.decode_of_le order layout (Nat.le_trans enough (Nat.le_of_eq whole.symm))
    dsimp only [Except.bind, Option.bind]
    rw [same]
    exact present block value decoded

end HfsPlus
