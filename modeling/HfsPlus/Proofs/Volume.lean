import HfsPlus.Proofs.Outcome
import HfsPlus.Volume
import Mathlib.Tactic.Choose
import Mathlib.Tactic.Push

/-!
# The bytes that a volume supplies

A read of a window depends on a position and a length, and nothing ties one read to another.
A byte is supplied at a position if some read delivers it there. A window is `Coherent` if
its reads come to no more and no less than these bytes: whatever is supplied byte by byte is
delivered in one read.

A volume over a source is such a window if the source serves bytes that do not depend on how
they are asked for, `Source.Serves`. It may deliver them in pieces of any size, and it may fail
or end where there is a byte that it cannot serve.
-/

namespace HfsPlus

namespace Window

variable {window : Window}

/-- A read delivers what the window holds. -/
theorem read_run (window : Window) (start count : Nat) :
    (window.read start count : ExceptT Error Id Bytes).run = window.content start count := by
  rw [Window.read, run_bind_direct]
  cases content : window.content start count with
  | error cause => rfl
  | ok found => exact run_noted_if _ (pure found)

/-- An exact read depends on the window through what it holds there. -/
theorem readExact_run (window : Window) (start count : Nat) :
    (window.readExact start count : ExceptT Error Id Bytes).run =
      (window.content start count).bind fun bytes =>
        if bytes.length = count then .ok bytes
        else .error (.shortRead start count bytes.length) := by
  rw [readExact, run_bind_direct, read_run]
  cases window.content start count with
  | error cause => rfl
  | ok bytes =>
    dsimp only [Except.bind]
    split <;> rfl

/-- An exact read succeeds with what the window holds, if that is as much as was wanted. -/
theorem readExact_eq_ok {start count : Nat} {bytes : Bytes} :
    (window.readExact start count : ExceptT Error Id Bytes).run = .ok bytes ↔
      window.content start count = .ok bytes ∧ bytes.length = count := by
  rw [readExact, run_bind_eq_ok, read_run]
  constructor
  · rintro ⟨found, content, exactly⟩
    by_cases enough : found.length = count
    · rw [if_pos enough] at exactly
      cases exactly
      exact ⟨content, enough⟩
    · rw [if_neg enough] at exactly
      cases exactly
  · rintro ⟨content, enough⟩
    exact ⟨bytes, content, by rw [if_pos enough]; rfl⟩

/-- A read delivers a byte at a position. -/
def Supplies (window : Window) (position : Nat) (byte : UInt8) : Prop :=
  ∃ start bytes, start ≤ position ∧ window.content start bytes.length = .ok bytes ∧
    bytes[position - start]? = some byte

/-- Bytes that are supplied one by one are delivered in one read. -/
def Coherent (window : Window) : Prop :=
  ∀ start bytes, (∀ place byte, bytes[place]? = some byte →
    window.Supplies (start + place) byte) → window.content start bytes.length = .ok bytes

/-- What is left of a read that is cut to a length lies inside it. -/
theorem holds_of_lt_clip {length : Option Nat} {start wanted ahead : Nat}
    (inside : ahead < clip length start wanted) : holds length (start + ahead) = true := by
  cases length with
  | none => rfl
  | some length =>
    simp only [clip] at inside
    simp only [holds, decide_eq_true_eq]
    omega

/-- A read that lies inside a length is not cut. -/
theorem clip_eq_of_holds {length : Option Nat} {start wanted : Nat}
    (inside : ∀ ahead < wanted, holds length (start + ahead) = true) :
    clip length start wanted = wanted := by
  cases length with
  | none => rfl
  | some length =>
    by_cases nothing : wanted = 0
    · simp [clip, nothing]
    · have last := inside (wanted - 1) (by omega)
      simp only [holds, decide_eq_true_eq] at last
      simp only [clip]
      omega

/-- A coherent window supplies one byte at a position. -/
theorem Coherent.unique (coherent : window.Coherent) {position : Nat} {byte other : UInt8}
    (supplied : window.Supplies position byte) (also : window.Supplies position other) :
    byte = other := by
  have alone {found : UInt8} (found_ : window.Supplies position found) :
      window.content position 1 = .ok [found] := by
    refine coherent position [found] ?_
    rintro (_ | place) byte holds
    · obtain ⟨⟩ := holds
      exact found_
    · simp at holds
  have same := (alone supplied).symm.trans (alone also)
  simpa using same

/-- A coherent window delivers as many bytes as it supplies one behind the other. -/
theorem Coherent.readExact (coherent : window.Coherent) {start count : Nat}
    (supplied : ∀ ahead < count, ∃ byte, window.Supplies (start + ahead) byte) :
    ∃ bytes, (window.readExact start count : ExceptT Error Id Bytes).run = .ok bytes := by
  choose! byte supplies using supplied
  let bytes := (List.range count).map byte
  have length : bytes.length = count := by simp [bytes]
  have read : window.content start bytes.length = .ok bytes := by
    refine coherent start bytes fun place found holds => ?_
    have inside : place < count := by
      rw [← length]
      exact (List.getElem?_eq_some_iff.mp holds).1
    have here : byte place = found := by simpa [bytes, inside] using holds
    rw [← here]
    exact supplies place inside
  exact ⟨bytes, readExact_eq_ok.mpr ⟨by rwa [length] at read, length⟩⟩

/-- What an exact read delivers is supplied. -/
theorem supplies_of_readExact {start count : Nat} {bytes : Bytes}
    (delivered : (window.readExact start count : ExceptT Error Id Bytes).run = .ok bytes)
    {place : Nat} {byte : UInt8} (holds : bytes[place]? = some byte) :
    window.Supplies (start + place) byte := by
  obtain ⟨content, rfl⟩ := readExact_eq_ok.mp delivered
  exact ⟨start, bytes, Nat.le_add_right _ _, content, by rwa [Nat.add_sub_cancel_left]⟩

/-- A coherent window delivers in two reads what it delivers in one. -/
theorem Coherent.readExact_add (coherent : window.Coherent) {start first rest : Nat}
    {bytes : Bytes} :
    (window.readExact start (first + rest) : ExceptT Error Id Bytes).run = .ok bytes ↔
      ∃ front behind, (window.readExact start first : ExceptT Error Id Bytes).run = .ok front ∧
        (window.readExact (start + first) rest : ExceptT Error Id Bytes).run = .ok behind ∧
        bytes = front ++ behind := by
  constructor
  · intro delivered
    have length := (readExact_eq_ok.mp delivered).2
    have frontLength : (bytes.take first).length = first := by rw [List.length_take]; omega
    have behindLength : (bytes.drop first).length = rest := by rw [List.length_drop]; omega
    have front : window.content start (bytes.take first).length = .ok (bytes.take first) := by
      refine coherent _ _ fun place byte holds => supplies_of_readExact delivered ?_
      have inside := (List.getElem?_eq_some_iff.mp holds).1
      rwa [List.getElem?_take_of_lt (by omega)] at holds
    have behind : window.content (start + first) (bytes.drop first).length =
        .ok (bytes.drop first) := by
      refine coherent _ _ fun place byte holds => ?_
      rw [Nat.add_assoc]
      exact supplies_of_readExact delivered (by rwa [List.getElem?_drop] at holds)
    rw [frontLength] at front
    rw [behindLength] at behind
    exact ⟨_, _, readExact_eq_ok.mpr ⟨front, frontLength⟩,
      readExact_eq_ok.mpr ⟨behind, behindLength⟩, (List.take_append_drop first bytes).symm⟩
  · rintro ⟨front, behind, delivered, later, rfl⟩
    have frontLength := (readExact_eq_ok.mp delivered).2
    have behindLength := (readExact_eq_ok.mp later).2
    have length : (front ++ behind).length = first + rest := by rw [List.length_append]; omega
    have whole : window.content start (front ++ behind).length = .ok (front ++ behind) := by
      refine coherent _ _ fun place byte holds => ?_
      by_cases here : place < front.length
      · rw [List.getElem?_append_left here] at holds
        exact supplies_of_readExact delivered holds
      · rw [List.getElem?_append_right (by omega)] at holds
        have supplied := supplies_of_readExact later holds
        rwa [show start + first + (place - front.length) = start + place by omega] at supplied
    rw [length] at whole
    exact readExact_eq_ok.mpr ⟨whole, length⟩

/-- Where a coherent window does not deliver some bytes, it does not supply one of them. -/
theorem Coherent.unsupplied (coherent : window.Coherent) {start count : Nat} {cause : Error}
    (unread : (window.readExact start count : ExceptT Error Id Bytes).run = .error cause) :
    ∃ ahead < count, ∀ byte, ¬ window.Supplies (start + ahead) byte := by
  by_contra all
  push Not at all
  obtain ⟨bytes, delivered⟩ := coherent.readExact all
  rw [delivered] at unread
  cases unread

end Window

namespace Source

/-- A source serves bytes, and none at positions where it has failed or ended. What it delivers
is right, and it delivers something where everything that is asked for is there. -/
structure Serves (source : Source) (byte : Nat → Option UInt8) : Prop where
  right : ∀ offset wanted bytes, (source.deliver offset wanted).settle = .ok bytes →
    ∀ place found, place < wanted → bytes[place]? = some found → byte (offset + place) = some found
  onward : ∀ offset wanted, 0 < wanted → (∀ place < wanted, byte (offset + place) ≠ none) →
    ∃ bytes, (source.deliver offset wanted).settle = .ok bytes ∧ bytes ≠ []

variable {source : Source} {byte : Nat → Option UInt8}

/-- The part of a delivery that was wanted is right. -/
theorem Serves.front (serves : source.Serves byte) {start wanted : Nat} {first : UInt8}
    {others : Bytes} (more : ¬ wanted = 0)
    (delivered : (source.deliver start wanted).settle = .ok (first :: others)) {place : Nat}
    {found : UInt8} (holds : (first :: others.take (wanted - 1))[place]? = some found) :
    byte (start + place) = some found := by
  have piece : first :: others.take (wanted - 1) = (first :: others).take wanted :=
    (List.take_cons (by omega)).symm
  rw [piece] at holds
  have inside := (List.getElem?_eq_some_iff.mp holds).1
  rw [List.length_take] at inside
  rw [List.getElem?_take_of_lt (by omega)] at holds
  exact serves.right start wanted _ delivered place found (by omega) holds

/-- What is gathered behind some deliveries is right, and no more than was wanted. The induction
follows the deliveries. -/
theorem Serves.gathered (serves : source.Serves byte) {start wanted : Nat}
    {collected : List Bytes} {bytes : Bytes}
    (gathered : source.gatherBehind start wanted collected = .ok bytes) :
    ∃ behind, bytes = collected.reverse.flatten ++ behind ∧ behind.length ≤ wanted ∧
      ∀ place found, behind[place]? = some found → byte (start + place) = some found := by
  fun_induction source.gatherBehind start wanted collected with
  | case1 start collected =>
    cases gathered
    exact ⟨[], by simp [assemble_eq], Nat.zero_le _, by simp⟩
  | case2 start wanted collected more error failed => cases gathered
  | case3 start wanted collected more ended =>
    cases gathered
    exact ⟨[], by simp [assemble_eq], Nat.zero_le _, by simp⟩
  | case4 start wanted collected more first others delivered front inductionHypothesis =>
    obtain ⟨behind, rfl, length, right⟩ := inductionHypothesis gathered
    have within : front.length ≤ wanted := by
      simp only [front, List.length_cons, List.length_take]
      omega
    refine ⟨front ++ behind, by simp, by rw [List.length_append]; omega, ?_⟩
    intro place found holds
    by_cases here : place < front.length
    · rw [List.getElem?_append_left here] at holds
      exact serves.front more delivered holds
    · rw [List.getElem?_append_right (by omega)] at holds
      have there := right _ found holds
      rwa [show start + front.length + (place - front.length) = start + place by omega] at there

/-- Where all that is wanted is there, as much is gathered. -/
theorem Serves.gathers (serves : source.Serves byte) {start wanted : Nat}
    (collected : List Bytes) (there : ∀ place < wanted, byte (start + place) ≠ none) :
    ∃ behind, behind.length = wanted ∧
      source.gatherBehind start wanted collected = .ok (collected.reverse.flatten ++ behind) := by
  fun_induction source.gatherBehind start wanted collected with
  | case1 start collected => exact ⟨[], rfl, by simp [assemble_eq]⟩
  | case2 start wanted collected more error failed =>
    obtain ⟨bytes, settled, _⟩ := serves.onward start wanted (by omega) there
    rw [settled] at failed
    cases failed
  | case3 start wanted collected more ended =>
    obtain ⟨bytes, settled, nonempty⟩ := serves.onward start wanted (by omega) there
    rw [settled] at ended
    cases ended
    exact absurd rfl nonempty
  | case4 start wanted collected more first others delivered front inductionHypothesis =>
    have within : front.length ≤ wanted := by
      simp only [front, List.length_cons, List.length_take]
      omega
    obtain ⟨behind, length, gathered⟩ := inductionHypothesis (fun place inside => by
      rw [Nat.add_assoc]
      exact there _ (by omega))
    refine ⟨front ++ behind, by rw [List.length_append]; omega, ?_⟩
    rw [gathered]
    simp

end Source

namespace Volume

variable {volume : Volume} {byte : Nat → Option UInt8}

/-- A volume supplies no byte that its source does not serve, and none outside its length. -/
theorem served_of_supplies (serves : volume.source.Serves byte) {position : Nat} {found : UInt8}
    (supplied : volume.window.Supplies position found) :
    byte (volume.offset + position) = some found ∧ Window.holds volume.length position = true := by
  obtain ⟨start, bytes, from_, content, holds⟩ := supplied
  have inside := (List.getElem?_eq_some_iff.mp holds).1
  change volume.content start bytes.length = .ok bytes at content
  unfold Volume.content at content
  split at content
  · cases content
    simp at inside
  split at content
  · cases content
    simp at inside
  obtain ⟨behind, rfl, length, right⟩ := serves.gathered content
  have served := right (position - start) found holds
  have shown := Window.holds_of_lt_clip (Nat.lt_of_lt_of_le inside length)
  rw [show volume.offset + start + (position - start) = volume.offset + position by omega] at served
  rw [show start + (position - start) = position by omega] at shown
  exact ⟨served, shown⟩

/-- A volume is coherent over a source that serves bytes: as many are gathered as were asked for,
each of them the one that is supplied there. Positions that cannot be told are not among them. -/
theorem coherent_of_serves (serves : volume.source.Serves byte)
    (bounded : ∀ position, byte position ≠ none → position < positionBound) :
    volume.window.Coherent := by
  intro start bytes supplied
  have served (place : Nat) (inside : place < bytes.length) :
      byte (volume.offset + start + place) = some bytes[place] ∧
        Window.holds volume.length (start + place) = true := by
    rw [Nat.add_assoc]
    exact served_of_supplies serves (supplied place _ (List.getElem?_eq_getElem inside))
  have whole : Window.clip volume.length start bytes.length = bytes.length :=
    Window.clip_eq_of_holds fun place inside => (served place inside).2
  obtain ⟨behind, length, gathered⟩ := serves.gathers [] fun place inside => by
    rw [(served place inside).1]
    simp
  obtain ⟨_, rfl, _, right⟩ := serves.gathered gathered
  have same : behind = bytes := by
    refine List.ext_getElem length fun place inBehind inside => ?_
    have here := right place _ (List.getElem?_eq_getElem inBehind)
    rw [(served place inside).1] at here
    exact (Option.some.inj here).symm
  subst same
  change volume.content start behind.length = .ok behind
  unfold Volume.content
  rw [whole]
  cases behind with
  | nil =>
    rw [show volume.source.gather (volume.offset + start) [].length = .ok [] from gathered]
    simp
  | cons first later =>
    obtain ⟨there, shown⟩ := served 0 (Nat.succ_pos _)
    have told := bounded (volume.offset + start) (by rw [Nat.add_zero] at there; simp [there])
    rw [Nat.add_zero] at shown
    rw [if_neg (by simp [shown]), if_neg (by omega)]
    exact gathered

end Volume

end HfsPlus
