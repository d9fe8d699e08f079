import HfsPlus.Proofs.Volume.Parts

/-!
# Parts of parts

Parts are cut out of a volume, parts out of these, and so on to any depth. However the cuts
are placed, a part either is empty or lies between the bounds of the volume that all of them
were cut out of, so that no start has to be moved to the last position where bytes are read.
What a read delivers is then what its source has at one stretch of positions, and that stretch
lies inside every volume on the way.

Three things follow. A part reads as the volume that it was cut out of. Two cuts are one cut.
And nothing outside of a volume is delivered by any part of it: its reads are reads of the
volume, and a source that differs only elsewhere is read alike.
-/

namespace HfsPlus

namespace Source

variable {left right : Source} {first last : Nat}

/-- Two sources answer alike all requests that lie between two positions. -/
def AlikeBetween (left right : Source) (first last : Nat) : Prop :=
  ∀ start wanted, first ≤ start → start + wanted ≤ last →
    (left.deliver start wanted).settle = (right.deliver start wanted).settle

/-- Gathering between two positions asks for nothing outside of them. Each further request ends
where the first one did, so the induction follows the deliveries. -/
theorem AlikeBetween.gatherBehind (alike : left.AlikeBetween right first last)
    {start wanted : Nat} (behind : first ≤ start) (ahead : start + wanted ≤ last)
    (collected : List Bytes) :
    left.gatherBehind start wanted collected = right.gatherBehind start wanted collected := by
  fun_induction left.gatherBehind start wanted collected with
  | case1 start collected =>
    rw [Source.gatherBehind, if_pos rfl]
  | case2 start wanted collected more cause failed =>
    rw [alike start wanted behind ahead] at failed
    rw [Source.gatherBehind, if_neg more, failed]
  | case3 start wanted collected more ended =>
    rw [alike start wanted behind ahead] at ended
    rw [Source.gatherBehind, if_neg more, ended]
  | case4 start wanted collected more byte others delivered front inductionHypothesis =>
    rw [alike start wanted behind ahead] at delivered
    have within : front.length ≤ wanted := by
      simp only [front, List.length_cons, List.length_take]
      omega
    rw [inductionHypothesis (by omega) (by omega)]
    conv_rhs => rw [Source.gatherBehind, if_neg more, delivered]

end Source

namespace Volume

/-- What a read of a volume delivers. -/
def readAt (volume : Volume) (offset wanted : Nat) : Except Error Bytes :=
  (volume.window.read offset wanted : ExceptT Error Id Bytes).run

/-- A volume whose length is known and whose end can be told. -/
def Bounded (volume : Volume) : Prop :=
  ∃ length, volume.length = some length ∧ volume.offset + length < positionBound

/-- A volume is the whole, or was cut out of such a volume. -/
inductive PartOf (whole : Volume) : Volume → Prop where
  | itself : PartOf whole whole
  | cut {volume : Volume} (part : PartOf whole volume) (start length : Nat) (kind : VolumeKind) :
    PartOf whole (volume.sub start length kind)

/-- A volume without bytes, or one that lies between two positions of its source. -/
structure LiesBetween (volume : Volume) (first last length : Nat) : Prop where
  known : volume.length = some length
  inside : 0 < length → first ≤ volume.offset ∧ volume.offset + length ≤ last

variable {whole volume : Volume} {first last length : Nat}

/-- A read delivers what the volume holds. -/
theorem readAt_eq (volume : Volume) (offset wanted : Nat) :
    volume.readAt offset wanted = volume.content offset wanted :=
  Window.read_run volume.window offset wanted

/-- From the end of a volume on nothing is delivered. -/
theorem readAt_ended (known : volume.length = some length) {offset : Nat}
    (ended : length ≤ offset) (wanted : Nat) : volume.readAt offset wanted = .ok [] := by
  have outside : Window.holds volume.length offset = false := by simp [known, Window.holds, ended]
  rw [readAt_eq, content, outside]
  rfl

namespace LiesBetween

/-- A read inside a volume gathers from its place on the source, and not beyond the end. -/
theorem readAt_inside (lies : volume.LiesBetween first last length) (told : last < positionBound)
    {offset : Nat} (within : offset < length) (wanted : Nat) :
    volume.readAt offset wanted =
      volume.source.gather (volume.offset + offset) (min wanted (length - offset)) := by
  obtain ⟨_, ends⟩ := lies.inside (by omega)
  have held : Window.holds volume.length offset = true := by simp [lies.known, Window.holds, within]
  have position : ¬ positionBound ≤ volume.offset + offset := by omega
  rw [readAt_eq, content, held, if_neg position, lies.known]
  rfl

/-- A cut keeps to the positions of what it is made in. Only a part without bytes may have to
start somewhere else. -/
theorem sub (lies : volume.LiesBetween first last length) (told : last < positionBound)
    (start wanted : Nat) (kind : VolumeKind) :
    (volume.sub start wanted kind).LiesBetween first last (min wanted (length - start)) := by
  constructor
  · simp [Volume.sub, lies.known]
  · intro nonempty
    obtain ⟨starts, ends⟩ := lies.inside (by omega)
    rw [offset_sub volume (by omega)]
    omega

end LiesBetween

/-- Cuts lie between the bounds of what they are made in, at any depth. -/
theorem PartOf.liesBetween (part : PartOf whole volume) (known : whole.length = some length)
    (told : whole.offset + length < positionBound) :
    ∃ inner, volume.LiesBetween whole.offset (whole.offset + length) inner := by
  induction part with
  | itself => exact ⟨length, known, fun _ => by omega⟩
  | cut _ start wanted kind inductionHypothesis =>
    obtain ⟨inner, lies⟩ := inductionHypothesis
    exact ⟨_, lies.sub told start wanted kind⟩

/-- All parts are parts of the same source. -/
theorem PartOf.source_eq (part : PartOf whole volume) : volume.source = whole.source := by
  induction part with
  | itself => rfl
  | cut _ start wanted kind inductionHypothesis => exact inductionHypothesis

/-- A cut in a bounded volume is bounded. If it is empty it may start behind the volume, but never
beyond all positions. -/
theorem Bounded.sub (bounded : volume.Bounded) (start wanted : Nat) (kind : VolumeKind) :
    (volume.sub start wanted kind).Bounded := by
  obtain ⟨length, known, told⟩ := bounded
  refine ⟨min wanted (length - start), by simp [Volume.sub, known], ?_⟩
  have position : 0 < positionBound := by decide
  change min (volume.offset + start) (positionBound - 1) + min wanted (length - start) < positionBound
  omega

/-- All parts of a bounded volume are bounded. -/
theorem PartOf.bounded (part : PartOf whole volume) (bounded : whole.Bounded) : volume.Bounded := by
  induction part with
  | itself => exact bounded
  | cut _ start wanted kind inductionHypothesis => exact inductionHypothesis.sub start wanted kind

/-- Two cuts are one cut. -/
theorem window_sub_sub (volume : Volume) (first firstLength second secondLength : Nat)
    (firstKind secondKind kind : VolumeKind) :
    ((volume.sub first firstLength firstKind).sub second secondLength secondKind).window =
      (volume.sub (first + second) (min secondLength (firstLength - second)) kind).window := by
  have length : ((volume.sub first firstLength firstKind).sub second secondLength secondKind).length =
      (volume.sub (first + second) (min secondLength (firstLength - second)) kind).length := by
    cases known : volume.length with
    | none => simp [sub, known]
    | some outer =>
      simp only [sub, known, Option.some.injEq]
      omega
  have offset : ((volume.sub first firstLength firstKind).sub second secondLength secondKind).offset =
      (volume.sub (first + second) (min secondLength (firstLength - second)) kind).offset := by
    simp only [sub]
    omega
  unfold window
  congr 1
  funext start wanted
  unfold content
  rw [length, offset]
  rfl

/-- What is read of a volume is read inside of a whole: at the same place of the source, and as if
the source had nothing else. -/
structure ConfinedTo (volume whole : Volume) : Prop where
  /-- A read is a read of the whole that ends inside of it, or it delivers nothing. -/
  taken : ∀ length, whole.length = some length → ∀ offset wanted,
    volume.readAt offset wanted = .ok [] ∨
      ∃ place count, whole.offset + place = volume.offset + offset ∧ place + count ≤ length ∧
        volume.readAt offset wanted = whole.readAt place count
  /-- What the source has outside of the whole makes no difference. -/
  blind : ∀ length, whole.length = some length → ∀ other,
    volume.source.AlikeBetween other whole.offset (whole.offset + length) →
    ∀ offset wanted, { volume with source := other }.readAt offset wanted =
      volume.readAt offset wanted

/-- Parts of a bounded volume are confined to it. -/
theorem PartOf.confinedTo (part : PartOf whole volume) (bounded : whole.Bounded) :
    volume.ConfinedTo whole := by
  obtain ⟨outer, known, told⟩ := bounded
  obtain ⟨inner, lies⟩ := part.liesBetween known told
  have wholeLies : whole.LiesBetween whole.offset (whole.offset + outer) outer :=
    ⟨known, fun _ => by omega⟩
  constructor
  · intro length sameLength offset wanted
    obtain rfl : outer = length := by simpa [known] using sameLength
    by_cases within : offset < inner
    · right
      obtain ⟨starts, ends⟩ := lies.inside (by omega)
      have place : whole.offset + (volume.offset + offset - whole.offset) =
          volume.offset + offset := by omega
      refine ⟨volume.offset + offset - whole.offset, min wanted (inner - offset), place, by omega, ?_⟩
      rw [lies.readAt_inside told within, wholeLies.readAt_inside told (by omega), place,
        part.source_eq]
      congr 1
      omega
    · left
      exact readAt_ended lies.known (by omega) wanted
  · intro length sameLength other alike offset wanted
    obtain rfl : outer = length := by simpa [known] using sameLength
    have moved : { volume with source := other }.LiesBetween whole.offset (whole.offset + outer)
        inner := ⟨lies.known, lies.inside⟩
    by_cases within : offset < inner
    · obtain ⟨starts, ends⟩ := lies.inside (by omega)
      have same : volume.source.gather (volume.offset + offset) (min wanted (inner - offset)) =
          other.gather (volume.offset + offset) (min wanted (inner - offset)) :=
        alike.gatherBehind (by omega) (by omega) []
      rw [lies.readAt_inside told within, moved.readAt_inside told within, same]
    · rw [readAt_ended lies.known (by omega), readAt_ended moved.known (by omega)]

/-- **Parts compose and are confined.** Take any volume that was cut, in however many steps, out
of one whose length is known and whose end can be told, with any starts and lengths. A further
part of it has the length that is wanted, as far as the volume reaches. It reads as the volume
does from its start on, up to its own end, and delivers nothing from there on. A part of a part
reads as one part does. And the volume shows nothing that lies outside of any of the volumes that
it was cut out of. -/
theorem parts_nest {root volume : Volume} (bounded : root.Bounded) (part : PartOf root volume) :
    ∃ outer, volume.length = some outer ∧
      (∀ start length kind,
        let inner := min length (outer - start)
        (volume.sub start length kind).length = some inner ∧
          ∀ offset wanted,
            (offset < inner → (volume.sub start length kind).readAt offset wanted =
              volume.readAt (start + offset) (min wanted (inner - offset))) ∧
            (inner ≤ offset → (volume.sub start length kind).readAt offset wanted = .ok [])) ∧
      (∀ first firstLength firstKind second secondLength secondKind kind,
        let twice := (volume.sub first firstLength firstKind).sub second secondLength secondKind
        let once := volume.sub (first + second) (min secondLength (firstLength - second)) kind
        twice.length = once.length ∧
          (∀ offset wanted, twice.readAt offset wanted = once.readAt offset wanted) ∧
          (firstLength < second → twice.length = some 0)) ∧
      ∀ ancestor, PartOf root ancestor → PartOf ancestor volume → volume.ConfinedTo ancestor := by
  obtain ⟨outer, known, told⟩ := part.bounded bounded
  have lies : volume.LiesBetween volume.offset (volume.offset + outer) outer :=
    ⟨known, fun _ => by omega⟩
  refine ⟨outer, known, ?_, ?_, ?_⟩
  · intro start length kind inner
    have inside := lies.sub told start length kind
    refine ⟨inside.known, fun offset wanted => ⟨fun within => ?_, fun ended => ?_⟩⟩
    · obtain ⟨starts, ends⟩ := inside.inside (by omega)
      rw [readAt_eq, readAt_eq, content_sub volume (.inl (by omega)), inside.known]
      rfl
    · exact readAt_ended inside.known ended wanted
  · intro first firstLength firstKind second secondLength secondKind kind twice once
    have same : twice.window = once.window := window_sub_sub ..
    refine ⟨congrArg Window.length same, fun offset wanted => ?_, fun beyond => ?_⟩
    · rw [readAt, same]
      rfl
    · simp only [twice, sub, known, Option.some.injEq]
      omega
  · intro ancestor above below
    exact below.confinedTo (above.bounded bounded)

section Sample

/-- A disk of eight bytes. -/
def sampleDisk : Volume := ofImage ⟨#[0, 1, 2, 3, 4, 5, 6, 7]⟩

/-- Four bytes of a part of the disk, from the third on. -/
def sampleShelf : Volume := (sampleDisk.sub 2 6 .image).sub 1 4 .image

/-- A part of the shelf that is longer than the shelf ends with it. -/
theorem parts_nest_sample :
    sampleDisk.Bounded ∧ PartOf sampleDisk sampleShelf ∧
      (sampleShelf.sub 1 9 .image).length = some 3 ∧
      (sampleShelf.sub 1 9 .image).readAt 1 9 = sampleShelf.readAt 2 2 ∧
      sampleShelf.readAt 2 2 = .ok [5, 6] ∧
      (sampleShelf.sub 1 9 .image).readAt 3 9 = .ok [] ∧
      sampleShelf.ConfinedTo sampleDisk := by
  have bounded : sampleDisk.Bounded := ⟨8, rfl, by decide⟩
  have part : PartOf sampleDisk sampleShelf := (PartOf.itself.cut 2 6 .image).cut 1 4 .image
  obtain ⟨outer, known, reads, _, confined⟩ := parts_nest bounded part
  obtain rfl : 4 = outer := by simpa [sampleShelf, sampleDisk, sub, ofImage, ByteArray.size] using known
  obtain ⟨length, delivers⟩ := reads 1 9 .image
  exact ⟨bounded, part, length, (delivers 1 9).1 (by decide), by decide +kernel,
    (delivers 3 9).2 (by decide), confined _ .itself part⟩

end Sample

end Volume

end HfsPlus
