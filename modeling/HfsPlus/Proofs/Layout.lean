import HfsPlus.Record.Field

/-!
# Reading words and fixed structures

A word is read at a place exactly if its stored form stands there, and a structure of fixed size
is read off the front of some bytes exactly if they start with its stored form.
-/

namespace HfsPlus

/-- Bytes start with one piece and then another if the second stands behind the first. -/
theorem Bytes.append_prefix {left right bytes : Bytes} :
    left ++ right <+: bytes ↔ left <+: bytes ∧ right <+: bytes.drop left.length := by
  constructor
  · rintro ⟨rest, rfl⟩
    rw [List.append_assoc, List.drop_left]
    exact ⟨List.prefix_append _ _, List.prefix_append _ _⟩
  · rintro ⟨⟨behind, rfl⟩, after⟩
    rw [List.drop_left] at after
    exact List.prefix_append_right_inj left |>.mpr after

/-- A slice is as long as was asked for, and it stands where it was asked for. -/
theorem Bytes.slice?_eq_some {bytes part : Bytes} {start count : Nat} :
    bytes.slice? start count = some part ↔
      start ≤ bytes.length ∧ part.length = count ∧ part <+: bytes.drop start := by
  unfold Bytes.slice?
  constructor
  · intro cut
    split at cut
    next inside =>
      obtain ⟨⟩ := cut
      refine ⟨by omega, ?_, List.take_prefix _ _⟩
      rw [List.length_take, List.length_drop]
      omega
    next => cases cut
  · rintro ⟨inside, rfl, within⟩
    have room := within.length_le
    rw [List.length_drop] at room
    rw [if_pos (by omega), ← List.prefix_iff_eq_take.mp within]

namespace Word

variable {α : Type} [Word α] {subject : String} {bytes : Bytes} {position : Nat} {word : α}

/-- A signed word of 16 bits takes two bytes. -/
@[simp] theorem width_int16 : width Int16 = 2 := rfl

/-- A word of 16 bits takes two bytes. -/
@[simp] theorem width_uint16 : width UInt16 = 2 := rfl

/-- A word of 32 bits takes four bytes. -/
@[simp] theorem width_uint32 : width UInt32 = 4 := rfl

/-- A word of 64 bits takes eight bytes. -/
@[simp] theorem width_uint64 : width UInt64 = 8 := rfl

/-- The digits of a word have its value. -/
theorem value_bytes (word : α) : Bytes.value (Word.bytes word) = Word.toNat word :=
  Bytes.value_digits _ _ (Word.toNat_lt word)

/-- Words that are written one behind the other take as much as all of them. -/
theorem length_flatMap {β : Type} (word : β → α) (items : List β) :
    (items.flatMap fun item => Word.bytes (word item)).length = width α * items.length := by
  induction items with
  | nil => rfl
  | cons item later inductionHypothesis =>
    rw [List.flatMap_cons, List.length_append, length_encode, inductionHypothesis,
      List.length_cons, Nat.mul_succ, Nat.add_comm]

/-- A word that stands at a place has room there. -/
theorem le_of_prefix_drop (within : Word.bytes word <+: bytes.drop position) :
    width α ≤ bytes.length - position := by
  have room := within.length_le
  rwa [length_encode, List.length_drop] at room

/-- A word stands at each place that has room for one. -/
theorem exists_prefix_drop (α : Type) [Word α] {bytes : Bytes} {position : Nat}
    (inside : position + width α ≤ bytes.length) :
    ∃ word : α, Word.bytes word <+: bytes.drop position := by
  have enough : width α ≤ (bytes.drop position).length := by
    rw [List.length_drop]
    omega
  refine ⟨ofBytes .bigEndian ((bytes.drop position).take (width α)), ?_⟩
  rw [Word.bytes, encode_ofBytes _ _ (List.length_take_of_le enough)]
  exact List.take_prefix _ _

/-- Bytes start with one word only. -/
theorem eq_of_prefix {other : α} (starts : Word.bytes word <+: bytes)
    (also : Word.bytes other <+: bytes) : word = other := by
  have same : Word.bytes word = Word.bytes other := by
    rw [List.prefix_iff_eq_take.mp starts, List.prefix_iff_eq_take.mp also, length_encode,
      length_encode]
  rw [← ofBytes_encode .bigEndian word, ← ofBytes_encode .bigEndian other]
  exact congrArg (ofBytes .bigEndian) same

/-- The word that bytes start with is the one that their front spells. -/
theorem ofBytes_take (starts : Word.bytes word <+: bytes) :
    ofBytes .bigEndian (bytes.take (width α)) = word := by
  have taken := List.prefix_iff_eq_take.mp starts
  rw [length_encode] at taken
  rw [← taken, ofBytes_encode]

/-- Which word bytes start with can be told by its value. -/
theorem prefix_iff : Word.bytes word <+: bytes ↔
    width α ≤ bytes.length ∧ Bytes.value (bytes.take (width α)) = Word.toNat word := by
  constructor
  · intro starts
    have room := starts.length_le
    have taken := List.prefix_iff_eq_take.mp starts
    rw [length_encode] at room taken
    rw [← taken, value_bytes]
    exact ⟨room, rfl⟩
  · rintro ⟨room, told⟩
    have spelled : Word.bytes (ofBytes .bigEndian (bytes.take (width α)) : α) =
        bytes.take (width α) := encode_ofBytes _ _ (List.length_take_of_le room)
    have same : (ofBytes .bigEndian (bytes.take (width α)) : α) = word := by
      rw [ofBytes, Bytes.ordered, told, ofNat_toNat]
    rw [← same, spelled]
    exact List.take_prefix _ _

/-- The word at a place is the one whose bytes stand there. -/
theorem at?_eq_some : Word.at? bytes position = some word ↔
    position ≤ bytes.length ∧ Word.bytes word <+: bytes.drop position := by
  unfold Word.at?
  rw [Option.map_eq_some_iff]
  constructor
  · rintro ⟨part, cut, rfl⟩
    obtain ⟨inside, whole, within⟩ := Bytes.slice?_eq_some.mp cut
    rw [Word.bytes, encode_ofBytes _ _ whole]
    exact ⟨inside, within⟩
  · rintro ⟨inside, within⟩
    refine ⟨Word.bytes word, ?_, ofBytes_encode _ _⟩
    exact Bytes.slice?_eq_some.mpr ⟨inside, length_encode _ _, within⟩

/-- A field is read where its bytes stand. -/
theorem field_eq_ok : Word.field subject bytes position = .ok word ↔
    position ≤ bytes.length ∧ Word.bytes word <+: bytes.drop position := by
  rw [← at?_eq_some]
  unfold Word.field
  cases (Word.at? bytes position : Option α) <;> simp

/-- A field that is the first byte is read if there is one. -/
theorem field_head_eq_ok {byte : UInt8} :
    Word.field subject bytes 0 = .ok byte ↔ bytes.head? = some byte := by
  have written : Word.bytes byte = [byte] := by
    show [UInt8.ofNat byte.toNat] = [byte]
    rw [UInt8.ofNat_toNat]
  rw [field_eq_ok, written]
  cases bytes <;> simp [eq_comm]

/-- A field is there if the bytes do not end before it does. -/
theorem field_of_le (inside : position + width α ≤ bytes.length) :
    ∃ word : α, Word.field subject bytes position = .ok word := by
  obtain ⟨word, within⟩ := exists_prefix_drop α inside
  exact ⟨word, field_eq_ok.mpr ⟨by omega, within⟩⟩

/-- A field that is not there is refused with its place, and for nothing else. -/
theorem field_eq_error {cause : Error}
    (refused : (Word.field subject bytes position : Except Error α) = .error cause) :
    cause = .invalid (.fieldCut subject bytes.length position) := by
  unfold Word.field at refused
  split at refused
  · cases refused
  · obtain ⟨⟩ := refused
    rfl

/-- It is refused if the bytes end before it does. -/
theorem field_of_lt (cut : bytes.length < position + width α) :
    (Word.field subject bytes position : Except Error α) =
      .error (.invalid (.fieldCut subject bytes.length position)) := by
  unfold Word.field Word.at? Bytes.slice?
  rw [if_neg (by omega)]
  rfl

end Word

/-- What is read is what the bytes start with. -/
theorem Stored.read_eq_ok {α : Type} [Stored α] {bytes : Bytes} {value : α} :
    Stored.read bytes = .ok value ↔ Stored.encode value <+: bytes := by
  unfold Stored.read Stored.decode? Stored.encode
  constructor
  · intro read
    split at read
    next found rest decoded =>
      obtain ⟨⟩ := read
      exact ⟨rest, Layout.encode_of_decode _ _ _ _ _ decoded⟩
    next => cases read
  · rintro ⟨rest, rfl⟩
    rw [Layout.decode_encode]

/-- What cannot be read ends too early. -/
theorem Stored.read_eq_error {α : Type} [Stored α] {bytes : Bytes} {cause : Error}
    (refused : (Stored.read bytes : Except Error α) = .error cause) : cause = .undecodable := by
  unfold Stored.read at refused
  split at refused
  · cases refused
  · obtain ⟨⟩ := refused
    rfl

end HfsPlus
