import HfsPlus.Proofs.Volume

/-!
# Bytes that come in pieces

A source that holds some bytes, `Source.Holds`, may deliver as few of them as it likes, and may be
interrupted before it does. Each delivery moves the next request further on, so none is made twice
in a read, and a source may answer each of them in its own way. Whatever that way is, as much is
gathered as is wanted or as the source has left.

A request that fails ends the read that makes it, and what was delivered before is lost. `Asked`
are the requests that a read gets to make, so a read fails exactly when one of these does.
-/

namespace HfsPlus

namespace Source

/-- A source holds some bytes. After any number of interruptions it delivers at least one and at
most as many of them as are wanted, and none where they have ended. -/
structure Holds (source : Source) (bytes : Bytes) : Prop where
  inside : ∀ offset wanted, offset < bytes.length → 0 < wanted →
    ∃ piece, (source.deliver offset wanted).settle = .ok piece ∧
      0 < piece.length ∧ piece.length ≤ wanted ∧ piece <+: bytes.drop offset
  behind : ∀ offset wanted, bytes.length ≤ offset →
    (source.deliver offset wanted).settle = .ok []

/-- A source is asked for `count` bytes from `position` on while so much is gathered: by the first
request, or by one that goes on behind what the first one delivered. -/
inductive Asked (source : Source) (position count : Nat) : (start wanted : Nat) → Prop
  | first : 0 < count → Asked source position count position count
  | later {start wanted : Nat} {piece : Bytes} :
    (source.deliver start wanted).settle = .ok piece → 0 < piece.length →
    piece.length < wanted →
    Asked source position count (start + piece.length) (wanted - piece.length) →
    Asked source position count start wanted

variable {source : Source} {bytes : Bytes} {start wanted : Nat}

/-- Nothing has to be asked of a source to gather nothing. -/
theorem gather_zero (source : Source) (start : Nat) : source.gather start 0 = .ok [] := by
  rw [gather, gatherBehind]
  rfl

/-- An image holds its bytes, and delivers as many of them as it can. -/
theorem holds_ofImage (image : ByteArray) : (ofImage image).Holds image.data.toList := by
  have delivered (offset wanted : Nat) : ((ofImage image).deliver offset wanted).settle =
      .ok ((image.data.toList.drop offset).take wanted) := by
    simp [ofImage, Delivery.settle, Bytes.ofByteArray]
  constructor
  · intro offset wanted inside more
    refine ⟨_, delivered offset wanted, ?_, ?_, List.take_prefix _ _⟩
    · rw [List.length_take, List.length_drop]
      omega
    · exact List.length_take_le _ _
  · intro offset wanted beyond
    rw [delivered, List.drop_eq_nil_of_le beyond, List.take_nil]

/-- A source serves the bytes that it holds. -/
theorem Holds.serves (holds : source.Holds bytes) :
    source.Serves fun position => bytes[position]? := by
  constructor
  · intro offset wanted found delivered place byte inside there
    by_cases within : offset < bytes.length
    · obtain ⟨piece, settled, _, _, begins⟩ := holds.inside offset wanted within (by omega)
      cases delivered.symm.trans settled
      rw [← List.getElem?_drop]
      obtain ⟨rest, whole⟩ := begins
      rw [← whole, List.getElem?_append_left (List.getElem?_eq_some_iff.mp there).1]
      exact there
    · cases delivered.symm.trans (holds.behind offset wanted (by omega))
      cases there
  · intro offset wanted more there
    have first := there 0 more
    rw [Nat.add_zero] at first
    have within : offset < bytes.length := by
      by_contra beyond
      exact first (List.getElem?_eq_none (Nat.not_lt.mp beyond))
    obtain ⟨piece, settled, some_, _⟩ := holds.inside offset wanted within more
    exact ⟨piece, settled, List.ne_nil_of_length_pos some_⟩

/-- What a source that holds some bytes delivers first is what is wanted of them first, and the
rest of what is wanted lies behind it. -/
theorem take_drop_of_piece {piece : Bytes} (begins : piece <+: bytes.drop start)
    (within : piece.length ≤ wanted) :
    (bytes.drop start).take wanted =
      piece ++ (bytes.drop (start + piece.length)).take (wanted - piece.length) := by
  obtain ⟨rest, whole⟩ := begins
  rw [← List.drop_drop, ← whole, List.drop_left, List.take_append, List.take_of_length_le within]

/-- Behind what was collected before, as much is gathered as is wanted or as there is. The
induction follows the deliveries, of which none is longer than what is wanted. -/
theorem Holds.gatherBehind (holds : source.Holds bytes) (start wanted : Nat)
    (collected : List Bytes) :
    source.gatherBehind start wanted collected =
      .ok (collected.reverse.flatten ++ (bytes.drop start).take wanted) := by
  fun_induction source.gatherBehind start wanted collected with
  | case1 start collected => simp [assemble_eq]
  | case2 start wanted collected more cause failed =>
    by_cases inside : start < bytes.length
    · obtain ⟨piece, delivered, _⟩ := holds.inside start wanted inside (by omega)
      cases failed.symm.trans delivered
    · cases failed.symm.trans (holds.behind start wanted (by omega))
  | case3 start wanted collected more ended =>
    by_cases inside : start < bytes.length
    · obtain ⟨piece, delivered, some_, _⟩ := holds.inside start wanted inside (by omega)
      cases ended.symm.trans delivered
      cases some_
    · rw [assemble_eq, List.drop_eq_nil_of_le (Nat.not_lt.mp inside), List.take_nil,
        List.append_nil]
  | case4 start wanted collected more first others delivered front inductionHypothesis =>
    have inside : start < bytes.length := by
      by_contra beyond
      cases delivered.symm.trans (holds.behind start wanted (by omega))
    obtain ⟨piece, same, _, within, begins⟩ := holds.inside start wanted inside (by omega)
    obtain ⟨⟩ := delivered.symm.trans same
    have whole : front = first :: others := by
      rw [List.length_cons] at within
      simp only [front]
      rw [List.take_of_length_le (by omega)]
    rw [inductionHypothesis, whole, take_drop_of_piece begins within]
    simp

/-- As much is gathered as is wanted or as there is, in whatever pieces it comes. -/
theorem Holds.gather (holds : source.Holds bytes) (start wanted : Nat) :
    source.gather start wanted = .ok ((bytes.drop start).take wanted) :=
  holds.gatherBehind start wanted []

/-- Nothing is asked of a source where nothing is wanted. -/
theorem not_asked_nothing {position count : Nat} : ¬ source.Asked position count start 0 := by
  rintro (more | ⟨_, _, less, _⟩)
  · exact absurd more (Nat.lt_irrefl 0)
  · exact absurd less (Nat.not_lt_zero _)

/-- Where the first request delivers something, the other ones go on behind that. -/
theorem asked_behind {piece : Bytes} {position count : Nat}
    (delivered : (source.deliver start wanted).settle = .ok piece) (some_ : 0 < piece.length)
    {cause : Error} (failed : (source.deliver position count).settle = .error cause) :
    source.Asked position count start wanted ↔
      piece.length < wanted ∧
        source.Asked position count (start + piece.length) (wanted - piece.length) := by
  constructor
  · rintro (more | ⟨same, _, less, asked⟩)
    · cases delivered.symm.trans failed
    · cases delivered.symm.trans same
      exact ⟨less, asked⟩
  · rintro ⟨less, asked⟩
    exact .later delivered some_ less asked

/-- Gathering fails for the reason for which one of the requests fails that it gets to make, and
for no other. The induction follows the deliveries. -/
theorem gatherBehind_eq_error {collected : List Bytes} {cause : Error} :
    source.gatherBehind start wanted collected = .error cause ↔
      ∃ position count, source.Asked position count start wanted ∧
        (source.deliver position count).settle = .error cause := by
  fun_induction source.gatherBehind start wanted collected with
  | case1 start collected =>
    simp [not_asked_nothing]
  | case2 start wanted collected more other failed =>
    constructor
    · rintro ⟨⟩
      exact ⟨start, wanted, .first (Nat.pos_of_ne_zero more), failed⟩
    · rintro ⟨position, count, first | ⟨delivered, _⟩, also⟩
      · rw [← failed, also]
      · cases failed.symm.trans delivered
  | case3 start wanted collected more ended =>
    constructor
    · rintro ⟨⟩
    · rintro ⟨position, count, first | ⟨delivered, some_, _⟩, failed⟩
      · cases ended.symm.trans failed
      · cases ended.symm.trans delivered
        cases some_
  | case4 start wanted collected more first others delivered front inductionHypothesis =>
    rw [inductionHypothesis]
    refine exists_congr fun position => exists_congr fun count => and_congr_left fun failed => ?_
    rw [asked_behind delivered (Nat.succ_pos _) failed]
    by_cases less : (first :: others).length < wanted
    · have whole : front = first :: others := by
        rw [List.length_cons] at less
        simp only [front]
        rw [List.take_of_length_le (by omega)]
      rw [whole, and_iff_right less]
    · have all : wanted - front.length = 0 := by
        simp only [front, List.length_cons, List.length_take] at less ⊢
        omega
      rw [all]
      exact iff_of_false not_asked_nothing fun both => less both.1

/-- Gathering fails for the reason for which one of its requests fails, and for no other. -/
theorem gather_eq_error {cause : Error} :
    source.gather start wanted = .error cause ↔
      ∃ position count, source.Asked position count start wanted ∧
        (source.deliver position count).settle = .error cause :=
  gatherBehind_eq_error

end Source

namespace Volume

variable (volume : Volume) {bytes : Bytes}

/-- Nothing is left of a read that starts outside the length. -/
theorem clip_of_not_holds {length : Option Nat} {offset : Nat}
    (outside : Window.holds length offset = false) (wanted : Nat) :
    Window.clip length offset wanted = 0 := by
  cases length with
  | none => cases outside
  | some length =>
    simp only [Window.holds, decide_eq_false_iff_not] at outside
    simp only [Window.clip]
    omega

/-- What a volume holds is gathered from its source, unless it lies beyond all positions. -/
theorem content_eq (offset wanted : Nat) :
    volume.content offset wanted =
      if positionBound ≤ volume.offset + offset then .ok []
      else volume.source.gather (volume.offset + offset)
        (Window.clip volume.length offset wanted) := by
  unfold content
  cases inside : Window.holds volume.length offset with
  | false =>
    rw [clip_of_not_holds inside, Source.gather_zero]
    simp
  | true => rfl

/-- Of the bytes that its source holds, a volume holds as many as lie inside it. -/
theorem content_of_holds (holds : volume.source.Holds bytes) (told : bytes.length ≤ positionBound)
    (offset wanted : Nat) :
    volume.content offset wanted =
      .ok ((bytes.drop (volume.offset + offset)).take
        (Window.clip volume.length offset wanted)) := by
  rw [content_eq]
  split
  next beyond => rw [List.drop_eq_nil_of_le (Nat.le_trans told beyond), List.take_nil]
  next => exact holds.gather _ _

/-- All that can be learned of a volume is what it holds of the bytes of its source. -/
theorem window_of_holds (holds : volume.source.Holds bytes) (told : bytes.length ≤ positionBound) :
    volume.window = ⟨volume.length, fun offset wanted =>
      .ok ((bytes.drop (volume.offset + offset)).take
        (Window.clip volume.length offset wanted))⟩ := by
  unfold window
  rw [funext fun offset => funext fun wanted => volume.content_of_holds holds told offset wanted]

/-- A volume is coherent over a source that holds some bytes. -/
theorem coherent_of_holds (holds : volume.source.Holds bytes)
    (told : bytes.length ≤ positionBound) : volume.window.Coherent := by
  refine coherent_of_serves holds.serves fun position there => ?_
  obtain ⟨byte, found⟩ := Option.ne_none_iff_exists'.mp there
  exact Nat.lt_of_lt_of_le (List.getElem?_eq_some_iff.mp found).1 told

/-- What a volume holds cannot be told exactly when a request fails that is made for it. -/
theorem content_eq_error {offset wanted : Nat} {cause : Error} :
    volume.content offset wanted = .error cause ↔
      volume.offset + offset < positionBound ∧
        ∃ position count, volume.source.Asked position count (volume.offset + offset)
            (Window.clip volume.length offset wanted) ∧
          (volume.source.deliver position count).settle = .error cause := by
  rw [content_eq]
  split
  next beyond => simp [Nat.not_lt.mpr beyond]
  next told => rw [Source.gather_eq_error, and_iff_right (Nat.not_le.mp told)]

/-- **Reads hide how the source delivers.** Over a source that holds some bytes whose positions
can be told, a read delivers what lies at its place in these bytes: as much as is wanted, as far
as the volume reaches and as far as the source does, in whatever pieces and after however many
interruptions it comes. An exact read delivers the same if it is all that was wanted, and reports
how much it is if not. Over any source, a read fails with a cause exactly when one of the requests
that are made for it does, and then so does the exact read. -/
theorem pieces_unnoticed (offset wanted : Nat) :
    (∀ bytes, volume.source.Holds bytes → bytes.length < positionBound →
      ∃ there : Bytes,
        there.length = min (volume.length.elim wanted fun length => min wanted (length - offset))
          (bytes.length - (volume.offset + offset)) ∧
        there <+: bytes.drop (volume.offset + offset) ∧
        (volume.window.read offset wanted : ExceptT Error Id Bytes).run = .ok there ∧
        (volume.window.readExact offset wanted : ExceptT Error Id Bytes).run =
          if there.length = wanted then .ok there
          else .error (.shortRead offset wanted there.length)) ∧
      ∀ cause,
        ((volume.window.read offset wanted : ExceptT Error Id Bytes).run = .error cause ↔
          volume.offset + offset < positionBound ∧
            ∃ position count, volume.source.Asked position count (volume.offset + offset)
                (Window.clip volume.length offset wanted) ∧
              (volume.source.deliver position count).settle = .error cause) ∧
        ((volume.window.read offset wanted : ExceptT Error Id Bytes).run = .error cause →
          (volume.window.readExact offset wanted : ExceptT Error Id Bytes).run = .error cause) := by
  constructor
  · intro bytes holds told
    have content := volume.content_of_holds holds (Nat.le_of_lt told) offset wanted
    refine ⟨_, ?_, List.take_prefix _ _, (Window.read_run ..).trans content, ?_⟩
    · rw [List.length_take, List.length_drop]
      cases volume.length <;> rfl
    · rw [Window.readExact_run]
      exact congrArg (Except.bind · _) content
  · intro cause
    rw [Window.read_run, Window.readExact_run]
    refine ⟨volume.content_eq_error, fun failed => ?_⟩
    rw [failed]
    rfl

section Sample

/-- A source of some bytes that is interrupted before each delivery, and delivers one, two or
three bytes at once. It may fail at one position. -/
def hesitant (bytes : Bytes) (torn : Option Nat) : Source where
  size := bytes.length
  deliver offset wanted := .interrupted
    (if torn = some offset then .failed "torn"
    else .delivered ((bytes.drop offset).take (min wanted (1 + offset % 3))))

/-- Where it fails nowhere, the hesitant source holds its bytes. -/
theorem holds_hesitant (bytes : Bytes) : (hesitant bytes none).Holds bytes := by
  constructor
  · intro offset wanted inside more
    refine ⟨(bytes.drop offset).take (min wanted (1 + offset % 3)), rfl, ?_, ?_,
      List.take_prefix _ _⟩
    all_goals
      rw [List.length_take, List.length_drop]
      omega
  · intro offset wanted beyond
    simp [hesitant, Delivery.settle, List.drop_eq_nil_of_le beyond]

/-- Five bytes of the hesitant source, from the third on. -/
def hesitantPart (torn : Option Nat) : Volume where
  source := hesitant [10, 11, 12, 13, 14, 15, 16, 17] torn
  path := none
  offset := 2
  length := some 5
  sectorSize := 512
  depth := 1
  kind := .embedded

/-- Four bytes are left behind the first one of the part. They come as one and three, and the
second request fails where the source is torn. -/
theorem pieces_unnoticed_sample :
    let bytes : Bytes := [10, 11, 12, 13, 14, 15, 16, 17]
    (hesitantPart none).source.Holds bytes ∧ bytes.length < positionBound ∧
      ((hesitantPart none).window.read 1 9 : ExceptT Error Id Bytes).run =
        .ok [13, 14, 15, 16] ∧
      ((hesitantPart none).window.readExact 1 9 : ExceptT Error Id Bytes).run =
        .error (.shortRead 1 9 4) ∧
      ((hesitantPart (some 4)).window.readExact 1 9 : ExceptT Error Id Bytes).run =
        .error (.io "torn") := by
  intro bytes
  have told : bytes.length < positionBound := by decide
  obtain ⟨there, length, begins, read, exact_⟩ :=
    (pieces_unnoticed (hesitantPart none) 1 9).1 bytes (holds_hesitant _) told
  obtain rfl : there = [13, 14, 15, 16] := by
    rw [List.prefix_iff_eq_take.mp begins, length]
    rfl
  have delivered : ((hesitantPart (some 4)).source.deliver 3 4).settle = .ok [13] := rfl
  have asked : (hesitantPart (some 4)).source.Asked 4 3 3 4 :=
    .later delivered (by decide) (by decide) (.first (by decide))
  obtain ⟨fails, failsExactly⟩ := (pieces_unnoticed (hesitantPart (some 4)) 1 9).2 (.io "torn")
  exact ⟨holds_hesitant _, told, read, exact_,
    failsExactly (fails.mpr ⟨by decide, 4, 3, asked, rfl⟩)⟩

end Sample

end Volume

end HfsPlus
