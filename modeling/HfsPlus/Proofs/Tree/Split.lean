import HfsPlus.Proofs.Tree.Format

/-!
# Keys and values of records

A record of a leaf or an index node is the length of its key, the key, what the key leaves of the
room that it is given, and the value, which starts at an even place. `RecordForm.layOut` writes such
a record. Which room a key is given depends on the kind of the node and the form of the tree, and
whether there is a byte between it and the value on the room and on how the length is written, so
that neither can be told from the key alone.

Splitting undoes laying out. It fails for records that cannot have been laid out, and for no others:
those that are too short for the length of their key, or for the room that it is given, and those
whose key is longer than that. The rest are `RecordForm.Whole`. What lies between the key and the
value is never looked at.
-/

namespace HfsPlus

namespace RecordForm

variable (form : RecordForm) (kind : NodeKind)

/-- How many bytes the length of a key takes. -/
def lengthSize : Nat := if form.bigKeys then 2 else 1

/-- The room that a key of some length is given. In an index node it may be that of the longest. -/
def room (length : Nat) : Nat :=
  if kind = .index ∧ !form.variableIndexKeys then form.maxKeyLength else length

/-- Where the value starts behind a key of some length: the first even place behind its room. -/
def valueStart (length : Nat) : Nat :=
  form.lengthSize + form.room kind length + (form.lengthSize + form.room kind length) % 2

/-- A record with a key and a value. The room of the key is filled up with zeros, and a byte that
says nothing stands before the value where it is needed. -/
def layOut (key : Bytes) (pad : UInt8) (value : Bytes) : Bytes :=
  Bytes.digits form.lengthSize key.length ++ (key ++
    (List.replicate (form.room kind key.length - key.length) 0 ++
      (List.replicate ((form.lengthSize + form.room kind key.length) % 2) pad ++ value)))

/-- The length of a key can be written, and the key has room. -/
structure Fits (key : Bytes) : Prop where
  written : key.length < Bytes.bound form.lengthSize
  inside : key.length ≤ form.room kind key.length

/-- The length that a record says its key has. -/
def told (record : Bytes) : Nat := Bytes.value (record.take form.lengthSize)

/-- A record that can be split. -/
structure Whole (record : Bytes) : Prop where
  /-- It says how long its key is. -/
  telling : form.lengthSize ≤ record.length
  /-- The key is not longer than its room. -/
  inside : form.told record ≤ form.room kind (form.told record)
  /-- The room ends inside the record, and so does the byte behind it if there has to be one. -/
  covered : form.valueStart kind (form.told record) ≤ record.length

/-- Key and value are two slices of a record, one behind the other. The value starts at an even
place and ends where the record does. -/
structure Sliced (record : Bytes) (parts : SplitRecord) : Prop where
  key : record.slice? form.lengthSize parts.key.length = some parts.key
  value : ∃ start, record.slice? start parts.value.length = some parts.value ∧
    form.lengthSize + parts.key.length ≤ start ∧ start % 2 = 0 ∧
      start + parts.value.length = record.length

/-- What a record is split into. -/
def parts (record : Bytes) : SplitRecord where
  key := (record.drop form.lengthSize).take (form.told record)
  value := record.drop (form.valueStart kind (form.told record))

variable {form kind} {record : Bytes}

/-- A value starts at an even place. -/
theorem valueStart_even (length : Nat) : form.valueStart kind length % 2 = 0 := by
  unfold valueStart
  omega

/-- The parts of a record that can be split are slices of it. -/
theorem Whole.sliced (whole : form.Whole kind record) :
    form.Sliced record (form.parts kind record) := by
  have inside := whole.inside
  have covered := whole.covered
  have behind : form.lengthSize + form.told record ≤ form.valueStart kind (form.told record) := by
    unfold valueStart
    omega
  have keyLength : (form.parts kind record).key.length = form.told record := by
    rw [parts, List.length_take, List.length_drop]
    omega
  have valueLength : (form.parts kind record).value.length =
      record.length - form.valueStart kind (form.told record) := by
    rw [parts, List.length_drop]
  constructor
  case key =>
    rw [keyLength, Bytes.slice?, if_pos (by omega)]
    rfl
  case value =>
    refine ⟨form.valueStart kind (form.told record), ?_, by omega, valueStart_even _, by omega⟩
    rw [valueLength, Bytes.slice?, if_pos (by omega), List.take_of_length_le (by simp)]
    rfl

section LaidOut

variable {key value : Bytes} {pad : UInt8} (fits : form.Fits kind key)
include fits

/-- A record that was laid out says the length of its key. -/
theorem Fits.told : form.told (form.layOut kind key pad value) = key.length := by
  rw [RecordForm.told, layOut, List.take_left' (Bytes.length_digits ..),
    Bytes.value_digits _ _ fits.written]

/-- A record ends with its value. -/
theorem Fits.length_layOut :
    (form.layOut kind key pad value).length = form.valueStart kind key.length + value.length := by
  have inside := fits.inside
  simp only [layOut, List.length_append, Bytes.length_digits, List.length_replicate, valueStart]
  omega

/-- It can be split. -/
theorem Fits.whole : form.Whole kind (form.layOut kind key pad value) := by
  have length : (form.layOut kind key pad value).length = _ := fits.length_layOut
  constructor
  case telling =>
    rw [length, valueStart]
    omega
  case inside =>
    rw [fits.told]
    exact fits.inside
  case covered =>
    rw [fits.told, length]
    omega

/-- Its parts are the key and the value. -/
theorem Fits.parts : form.parts kind (form.layOut kind key pad value) = ⟨key, value⟩ := by
  have inside := fits.inside
  have told : form.told (form.layOut kind key pad value) = key.length := fits.told
  have behind : (form.layOut kind key pad value).drop form.lengthSize = key ++
      (List.replicate (form.room kind key.length - key.length) 0 ++
        (List.replicate ((form.lengthSize + form.room kind key.length) % 2) pad ++ value)) :=
    List.drop_left' (Bytes.length_digits ..)
  have start : form.valueStart kind key.length = form.lengthSize + (key.length +
      ((form.room kind key.length - key.length) +
        (form.lengthSize + form.room kind key.length) % 2)) := by
    unfold valueStart
    omega
  have rest : (form.layOut kind key pad value).drop (form.valueStart kind key.length) = value := by
    rw [start, ← List.drop_drop, behind, ← List.drop_drop, List.drop_left, ← List.drop_drop,
      List.drop_left' List.length_replicate, List.drop_left' List.length_replicate]
  rw [RecordForm.parts, told, behind, rest, List.take_left]

end LaidOut

end RecordForm

namespace Node

variable {form : RecordForm} {record : Bytes}

/-- The length of a key is the number that its bytes spell, if they are there. -/
theorem keyLength?_eq : keyLength? form record =
    if form.lengthSize ≤ record.length then
      some (form.told record, record.drop form.lengthSize)
    else none := by
  unfold keyLength? RecordForm.told RecordForm.lengthSize
  cases form.bigKeys with
  | true =>
    match record with
    | [] => rfl
    | [_] => rfl
    | high :: low :: rest => simp
  | false =>
    match record with
    | [] => rfl
    | length :: rest => simp [Bytes.value]

/-- A record is split exactly if it is there and can be split, and then into its parts. -/
theorem split_eq_ok {node : Node} {index : Nat} {parts : SplitRecord} :
    node.split form index = .ok parts ↔ ∃ record, node.record index = .ok record ∧
      form.Whole node.kind record ∧ parts = form.parts node.kind record := by
  rw [split, bind_eq_ok]
  refine exists_congr fun record => and_congr_right fun _ => ?_
  rw [keyLength?_eq]
  by_cases telling : form.lengthSize ≤ record.length
  case neg =>
    rw [if_neg telling]
    exact ⟨nofun, fun ⟨whole, _⟩ => absurd whole.telling telling⟩
  case pos =>
    have keyEnd : record.length - (record.drop form.lengthSize).length = form.lengthSize := by
      rw [List.length_drop]
      omega
    have room : (if node.kind = .index ∧ !form.variableIndexKeys then form.maxKeyLength
        else form.told record) = form.room node.kind (form.told record) := rfl
    have start : form.lengthSize + form.room node.kind (form.told record) +
        (form.lengthSize + form.room node.kind (form.told record)) % 2 =
          form.valueStart node.kind (form.told record) := rfl
    rw [if_pos telling]
    dsimp only
    rw [keyEnd, room, start]
    by_cases inside : form.told record ≤ form.room node.kind (form.told record)
    case neg =>
      rw [if_pos (Nat.not_le.mp inside)]
      exact ⟨nofun, fun ⟨whole, _⟩ => absurd whole.inside inside⟩
    case pos =>
      rw [if_neg (Nat.not_lt.mpr inside)]
      by_cases covered : form.valueStart node.kind (form.told record) ≤ record.length
      case neg =>
        rw [if_pos (Nat.not_le.mp covered)]
        exact ⟨nofun, fun ⟨whole, _⟩ => absurd whole.covered covered⟩
      case pos =>
        rw [if_neg (Nat.not_lt.mpr covered)]
        constructor
        · rintro ⟨⟩
          exact ⟨⟨telling, inside, covered⟩, rfl⟩
        · rintro ⟨-, rfl⟩
          rfl

/-- A record of a node is what lies between its offset and the next one. -/
theorem Readout.record_eq_ok {block : Bytes} {node : Node} (readout : Readout block node)
    {place : Nat} : node.record place = .ok record ↔
      place < node.count ∧ record = recordIn block place := by
  constructor
  · intro read
    by_cases inside : place < node.count
    case neg =>
      rw [readout.outside place (Nat.not_lt.mp inside)] at read
      cases read
    case pos =>
      obtain ⟨_, same, there⟩ := readout.inside place inside
      obtain ⟨⟩ := read.symm.trans same
      refine ⟨inside, ?_⟩
      rw [Bytes.slice?] at there
      split at there
      · exact (Option.some.inj there).symm
      · cases there
  · rintro ⟨inside, rfl⟩
    obtain ⟨record, read, there⟩ := readout.inside place inside
    rw [Bytes.slice?] at there
    split at there
    · obtain ⟨⟩ := there
      exact read
    · cases there

/-- **Splitting undoes laying out.** Of every node that was accepted, whatever form its tree has: a
record that was laid out with a key that fits is split into this key and its value, wherever in the
node it stands and whatever byte stands before the value. Of arbitrary bytes, a record is split
exactly if the node has it, it says how long its key is, the key is not longer than its room, and
the even place behind the room lies within the record. Key and value then are slices of the record
that do not overlap, and the value starts at an even place. -/
theorem records_split {tree : String} {number : UInt32} {block : Bytes} {node : Node}
    (parsed : parse tree number block = .ok node) (form : RecordForm) :
    (∀ place key pad value, place < node.count → form.Fits node.kind key →
      recordIn block place = form.layOut node.kind key pad value →
      node.split form place = .ok ⟨key, value⟩) ∧
    (∀ place, (∃ parts, node.split form place = .ok parts) ↔
      place < node.count ∧ form.Whole node.kind (recordIn block place)) ∧
    ∀ place parts, node.split form place = .ok parts →
      form.Sliced (recordIn block place) parts := by
  obtain ⟨descriptor, kind, formed, rfl⟩ := parse_eq_ok.mp parsed
  have readout := formed.readout tree number
  refine ⟨?_, fun place => ?_, fun place parts cut => ?_⟩
  · intro place key pad value inside fits laid
    refine split_eq_ok.mpr ⟨recordIn block place, readout.record_eq_ok.mpr ⟨inside, rfl⟩, ?_⟩
    rw [laid]
    exact ⟨fits.whole, fits.parts.symm⟩
  · constructor
    · rintro ⟨parts, cut⟩
      obtain ⟨_, there, whole, -⟩ := split_eq_ok.mp cut
      obtain ⟨inside, rfl⟩ := readout.record_eq_ok.mp there
      exact ⟨inside, whole⟩
    · rintro ⟨inside, whole⟩
      exact ⟨_, split_eq_ok.mpr ⟨_, readout.record_eq_ok.mpr ⟨inside, rfl⟩, whole, rfl⟩⟩
  · obtain ⟨_, there, whole, rfl⟩ := split_eq_ok.mp cut
    obtain ⟨-, rfl⟩ := readout.record_eq_ok.mp there
    exact whole.sliced

section Sample

/-! Keys of at most four bytes, which take this room in index nodes. -/

/-- How the records are written. -/
def sampleForm : RecordForm := ⟨false, false, 4⟩

/-- An index node with a record that was laid out and one that is too short. -/
def sampleBlock : Bytes :=
  layOut ⟨0, 0, 0, 2, 0, 0⟩ [sampleForm.layOut .index [1, 2] 9 [0, 0, 0, 7], [1, 5]]
    (List.replicate 20 0)

/-- The first record is split, and the second is not. -/
theorem records_split_sample : ∃ node, parse "sample" 1 sampleBlock = .ok node ∧
    node.split sampleForm 0 = .ok ⟨[1, 2], [0, 0, 0, 7]⟩ ∧
    ¬ ∃ parts, node.split sampleForm 1 = .ok parts := by
  have formed : Formed sampleBlock _ .index := formed_layOut (by decide) (by decide)
  have parsed := parse_eq_ok.mpr ⟨_, _, formed, (rfl : spelled "sample" 1 sampleBlock _ _ = _)⟩
  have count := (formed.readout "sample" 1).count
  obtain ⟨undone, exactly, -⟩ := records_split parsed sampleForm
  refine ⟨_, parsed, undone 0 [1, 2] 9 [0, 0, 0, 7] ?_ ?_ ?_, ?_⟩
  · rw [count]
    decide
  · exact ⟨by decide, by decide⟩
  · decide
  · intro cut
    obtain ⟨-, whole⟩ := (exactly 1).mp cut
    exact absurd whole.covered (by decide)

end Sample

end Node

end HfsPlus
