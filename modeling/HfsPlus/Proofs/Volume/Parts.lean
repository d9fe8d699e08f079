import HfsPlus.Proofs.Volume.Pieces

/-!
# Parts of volumes

A part that is cut out of a volume keeps to the bounds of the volume, however it is asked
for: what it delivers is what the volume itself delivers at the same place, cut to the
bounds of both. The one exception is the first byte of a part that would have to start
beyond all positions. So what a part has to tell is told by reads that lie inside the
volume, and two volumes that agree on these have agreeing parts.
-/

namespace HfsPlus

/-- What lies beyond the end is not asked for. -/
theorem Window.clip_clip (length : Option Nat) (offset wanted : Nat) :
    clip length offset (clip length offset wanted) = clip length offset wanted := by
  cases length with
  | none => rfl
  | some length => simp [clip]

namespace Volume

variable (volume : Volume)

/-- Nothing is delivered where nothing is wanted. -/
theorem content_zero (offset : Nat) : volume.content offset 0 = .ok [] := by
  have clipped : Window.clip volume.length offset 0 = 0 := by
    cases volume.length <;> simp [Window.clip]
  unfold content
  rw [clipped, Source.gather_zero]
  split
  · rfl
  · split <;> rfl

/-- Nothing is delivered from beyond all positions. -/
theorem content_beyond {offset : Nat} (beyond : positionBound ≤ volume.offset + offset)
    (wanted : Nat) : volume.content offset wanted = .ok [] := by
  unfold content
  rw [if_pos beyond]
  split <;> rfl

/-- A read delivers no more than the part of it that lies inside the volume. -/
theorem content_clip (offset wanted : Nat) :
    volume.content offset (Window.clip volume.length offset wanted) =
      volume.content offset wanted := by
  unfold content
  rw [Window.clip_clip]

/-- What is left of a read inside a part lies inside the whole. -/
theorem clip_sub (start length : Nat) (kind : VolumeKind) (offset wanted : Nat) :
    Window.clip volume.length (start + offset)
        (Window.clip (volume.sub start length kind).length offset wanted) =
      Window.clip (volume.sub start length kind).length offset wanted := by
  unfold sub
  cases volume.length with
  | none => rfl
  | some outer =>
    simp only [Window.clip]
    omega

/-- Only a part that would start beyond all positions starts somewhere else. -/
theorem offset_sub {start : Nat} (told : volume.offset + start < positionBound) (length : Nat)
    (kind : VolumeKind) : (volume.sub start length kind).offset = volume.offset + start := by
  unfold sub
  dsimp only
  omega

/-- **A part reads as the whole does** at the same place, cut to the bounds of the part. A part that
starts at the last position has nothing to read behind it. -/
theorem content_sub {start offset : Nat}
    (told : volume.offset + start < positionBound ∨ 0 < offset) (length : Nat)
    (kind : VolumeKind) (wanted : Nat) :
    (volume.sub start length kind).content offset wanted =
      volume.content (start + offset)
        (Window.clip (volume.sub start length kind).length offset wanted) := by
  by_cases inside : volume.offset + start < positionBound
  · by_cases held : Window.holds (volume.sub start length kind).length offset = true
    · have within : Window.holds volume.length (start + offset) = true := by
        unfold sub at held
        cases bound : volume.length with
        | none => rfl
        | some outer =>
          simp only [bound, Window.holds, decide_eq_true_eq] at held ⊢
          omega
      rw [content, content, held, within, clip_sub, offset_sub volume inside, Nat.add_assoc]
      rfl
    · have nothing : Window.clip (volume.sub start length kind).length offset wanted = 0 :=
        clip_of_not_holds (by simpa using held) wanted
      rw [nothing, content_zero, content, if_pos (by simp [held])]
  · have last : positionBound ≤ (volume.sub start length kind).offset + offset := by
      unfold sub
      dsimp only
      omega
    rw [content_beyond _ last, content_beyond _ (by omega)]

/-- Reads that lie inside a volume deliver some bytes, and there are no others in it. -/
structure Shows (volume : Volume) (bytes : Bytes) : Prop where
  length : volume.length = some bytes.length
  content : ∀ offset wanted, offset + wanted ≤ bytes.length →
    volume.content offset wanted = .ok ((bytes.drop offset).take wanted)

/-- A whole image shows its bytes. -/
theorem shows_ofImage {bytes : Bytes} (told : bytes.length ≤ positionBound) :
    (ofImage ⟨bytes.toArray⟩).Shows bytes where
  length := by simp [ofImage, ByteArray.size]
  content offset wanted inside := by
    by_cases nothing : wanted = 0
    · rw [nothing, content_zero, List.take_zero]
    have clipped : min wanted (bytes.length - offset) = wanted := by omega
    rw [content_of_holds _ (Source.holds_ofImage _) told]
    simp [ofImage, ofSource, Window.clip, ByteArray.size, clipped]

/-- A part shows the bytes of the whole that lie in it. -/
theorem Shows.sub {volume : Volume} {bytes : Bytes} (shows : volume.Shows bytes)
    {start : Nat} (told : volume.offset + start < positionBound) (length : Nat)
    (kind : VolumeKind) :
    (volume.sub start length kind).Shows ((bytes.drop start).take length) where
  length := by simp [Volume.sub, shows.length]
  content offset wanted inside := by
    rw [List.length_take, List.length_drop] at inside
    by_cases nothing : wanted = 0
    · rw [nothing, content_zero, List.take_zero]
    have clipped : Window.clip (volume.sub start length kind).length offset wanted = wanted := by
      simp only [Volume.sub, shows.length, Window.clip]
      omega
    rw [content_sub volume (.inl told), clipped, shows.content _ _ (by omega), List.drop_take,
      List.drop_drop, List.take_take, Nat.min_eq_left (by omega)]

end Volume

end HfsPlus
