import HfsPlus.Bytes
import HfsPlus.Text.Quoted

/-!
# Layouts of fixed structures

A structure on disk is its fields in order, without gaps; a field is a word, an
array of a fixed length, or a structure again. A `Layout α` says this once, and
everything else about the structure follows from it: its size, how it is read
off the front of some bytes, how it is written, and how its value is shown.

The laws hold for every layout: a structure takes exactly `size` bytes, reading
succeeds exactly when there are that many, what was written reads back, and what
was read is written back unchanged.
-/

namespace HfsPlus

/-- How values of a type lie in bytes. `field` and `done` chain the fields of a
structure; `record` gives the chain its name and says how the chained values make
up the structure and come apart again. -/
inductive Layout : Type → Type 1 where
  | word {α : Type} [Word α] : Layout α
  | array {α : Type} (count : Nat) (item : Layout α) : Layout (Vector α count)
  | done : Layout Unit
  | field {α β : Type} (name : String) (first : Layout α) (rest : Layout β) : Layout (α × β)
  | record {α β : Type} (name : String) (fields : Layout β) (make : β → α) (parts : α → β)
      (make_parts : ∀ whole, make (parts whole) = whole)
      (parts_make : ∀ fields, parts (make fields) = fields) : Layout α

namespace Layout

/-- How many bytes a value takes. -/
def size : {α : Type} → Layout α → Nat
  | α, word => Word.width α
  | _, array count item => count * item.size
  | _, done => 0
  | _, field _ first rest => first.size + rest.size
  | _, record _ fields .. => fields.size

/-- Read `count` values one after the other. -/
def decodeMany {α : Type} (one : Bytes → Option (α × Bytes)) :
    (count : Nat) → Bytes → Option (Vector α count × Bytes)
  | 0, bytes => some (#v[], bytes)
  | count + 1, bytes =>
    (decodeMany one count bytes).bind fun (front, bytes) =>
      (one bytes).map fun (last, rest) => (front.push last, rest)

/-- Read a value off the front, if enough bytes are there. -/
def decode (order : ByteOrder) : {α : Type} → Layout α → Bytes → Option (α × Bytes)
  | _, word, bytes => Word.decode? order bytes
  | _, array count item, bytes => decodeMany (item.decode order) count bytes
  | _, done, bytes => some ((), bytes)
  | _, field _ first rest, bytes =>
    (first.decode order bytes).bind fun (head, bytes) =>
      (rest.decode order bytes).map fun (tail, bytes) => ((head, tail), bytes)
  | _, record _ fields make .., bytes =>
    (fields.decode order bytes).map fun (values, bytes) => (make values, bytes)

/-- The bytes of a value. -/
def encode (order : ByteOrder) : {α : Type} → Layout α → α → Bytes
  | _, word, value => Word.encode order value
  | _, array _ item, values => values.toList.flatMap (item.encode order)
  | _, done, () => []
  | _, field _ first rest, (head, tail) => first.encode order head ++ rest.encode order tail
  | _, record _ fields _ parts .., whole => fields.encode order (parts whole)

/-- The value whose words are all zero. -/
def zero : {α : Type} → Layout α → α
  | _, word => Word.ofNat 0
  | _, array count item => Vector.replicate count item.zero
  | _, done => ()
  | _, field _ first rest => (first.zero, rest.zero)
  | _, record _ fields make .. => make fields.zero

/-- Whether a chain of fields ends here. -/
def isDone : {α : Type} → Layout α → Bool
  | _, done => true
  | _, _ => false

/-- A value with its structure. -/
def text : {α : Type} → Layout α → α → String
  | _, word, value => Word.text value
  | _, array _ item, values => Text.listed (values.toList.map item.text)
  | _, done, () => ""
  | _, field name first rest, (head, tail) =>
    name ++ ": " ++ first.text head ++ (if rest.isDone then "" else ", ") ++ rest.text tail
  | _, record name fields _ parts .., whole =>
    name ++ " \x7b " ++ fields.text (parts whole) ++ " \x7d"

/-- Reading an array undoes writing it, item by item. -/
theorem decodeMany_flatMap {α : Type} (one : Bytes → Option (α × Bytes)) (write : α → Bytes)
    (undone : ∀ item rest, one (write item ++ rest) = some (item, rest))
    (count : Nat) (values : Vector α count) (rest : Bytes) :
    decodeMany one count (values.toList.flatMap write ++ rest) = some (values, rest) := by
  induction count generalizing rest with
  | zero =>
    have empty : values = #v[] := by ext i inside; omega
    subst empty
    simp [decodeMany]
  | succ count inductionHypothesis =>
    have split : values = values.pop.push values.back := by simp
    rw [split, Vector.toList_push, List.flatMap_append, List.append_assoc, decodeMany,
      inductionHypothesis]
    simp [undone]

/-- Writing an array that was read gives its bytes back. -/
theorem flatMap_of_decodeMany {α : Type} (one : Bytes → Option (α × Bytes)) (write : α → Bytes)
    (exact : ∀ bytes item rest, one bytes = some (item, rest) → write item ++ rest = bytes)
    (count : Nat) (bytes : Bytes) (values : Vector α count) (rest : Bytes)
    (read : decodeMany one count bytes = some (values, rest)) :
    values.toList.flatMap write ++ rest = bytes := by
  induction count generalizing rest with
  | zero =>
    simp only [decodeMany, Option.some.injEq, Prod.mk.injEq] at read
    obtain ⟨rfl, rfl⟩ := read
    rfl
  | succ count inductionHypothesis =>
    simp only [decodeMany, Option.bind_eq_some_iff, Option.map_eq_some_iff, Prod.mk.injEq,
      Prod.exists] at read
    obtain ⟨front, middle, before, last, after, item, rfl, rfl⟩ := read
    rw [Vector.toList_push, List.flatMap_append, List.append_assoc]
    have tail := exact _ _ _ item
    simp only [List.flatMap_cons, List.flatMap_nil, List.append_nil]
    rw [tail]
    exact inductionHypothesis _ _ before

/-- What was written reads back, whatever follows it. -/
theorem decode_encode (order : ByteOrder) {α : Type} (layout : Layout α) (value : α)
    (rest : Bytes) : layout.decode order (layout.encode order value ++ rest) = some (value, rest) := by
  induction layout generalizing rest with
  | word =>
    simp [decode, encode, Word.decode?, Bytes.split?]
  | array count item inductionHypothesis =>
    exact decodeMany_flatMap _ _ inductionHypothesis count value rest
  | done => rfl
  | field name first rest' headHypothesis tailHypothesis =>
    simp [decode, encode, headHypothesis, tailHypothesis]
  | record name fields make parts make_parts parts_make inductionHypothesis =>
    simp [decode, encode, inductionHypothesis, make_parts]

/-- What was read is written back unchanged, and nothing else was consumed. -/
theorem encode_of_decode (order : ByteOrder) {α : Type} (layout : Layout α) (bytes : Bytes)
    (value : α) (rest : Bytes) (read : layout.decode order bytes = some (value, rest)) :
    layout.encode order value ++ rest = bytes := by
  induction layout generalizing bytes rest with
  | word =>
    simp only [decode, Word.decode?, Bytes.split?, Option.map_eq_some_iff, Prod.mk.injEq,
      Prod.exists, Option.ite_none_right_eq_some, Option.some.injEq] at read
    obtain ⟨front, after, ⟨enough, split⟩, rfl, rfl⟩ := read
    rw [List.splitAt_eq, Prod.mk.injEq] at split
    obtain ⟨rfl, rfl⟩ := split
    have exact : (bytes.take (Word.width _)).length = Word.width _ :=
      List.length_take_of_le enough
    rw [encode, Word.encode_ofBytes _ _ exact, List.take_append_drop]
  | array count item inductionHypothesis =>
    exact flatMap_of_decodeMany _ _ (fun bytes item rest => inductionHypothesis bytes item rest)
      count bytes value rest read
  | done =>
    simp only [decode, Option.some.injEq, Prod.mk.injEq] at read
    exact read.2.symm
  | field name first rest' headHypothesis tailHypothesis =>
    simp only [decode, Option.bind_eq_some_iff, Option.map_eq_some_iff, Prod.mk.injEq,
      Prod.exists] at read
    obtain ⟨head, middle, before, tail, after, item, rfl, rfl⟩ := read
    rw [encode, List.append_assoc, tailHypothesis _ _ _ item, headHypothesis _ _ _ before]
  | record name fields make parts make_parts parts_make inductionHypothesis =>
    simp only [decode, Option.map_eq_some_iff, Prod.mk.injEq, Prod.exists] at read
    obtain ⟨values, after, item, rfl, rfl⟩ := read
    rw [encode, parts_make]
    exact inductionHypothesis _ _ _ item

/-- A value takes exactly the size of its layout. -/
theorem length_encode (order : ByteOrder) {α : Type} (layout : Layout α) (value : α) :
    (layout.encode order value).length = layout.size := by
  induction layout with
  | word => simp [encode, size]
  | array count item inductionHypothesis =>
    have each : value.toList.map (fun value => (item.encode order value).length) =
        value.toList.map (fun _ => item.size) :=
      List.map_congr_left fun value _ => inductionHypothesis value
    rw [encode, List.length_flatMap, each, List.map_const', List.sum_replicate_nat,
      Vector.length_toList, size]
  | done => rfl
  | field name first rest headHypothesis tailHypothesis =>
    simp [encode, size, headHypothesis, tailHypothesis]
  | record name fields make parts make_parts parts_make inductionHypothesis =>
    simpa [encode, size] using inductionHypothesis (parts value)

/-- Reading an array needs the bytes of its items and no more. -/
theorem decodeMany_isSome {α : Type} (one : Bytes → Option (α × Bytes)) (width : Nat)
    (needs : ∀ bytes, width ≤ bytes.length →
      ∃ item rest, one bytes = some (item, rest) ∧ rest.length + width = bytes.length)
    (count : Nat) (bytes : Bytes) (enough : count * width ≤ bytes.length) :
    ∃ values rest, decodeMany one count bytes = some (values, rest) ∧
      rest.length + count * width = bytes.length := by
  induction count with
  | zero => exact ⟨#v[], bytes, rfl, by omega⟩
  | succ count inductionHypothesis =>
    rw [Nat.succ_mul] at enough
    obtain ⟨front, middle, before, left⟩ := inductionHypothesis (by omega)
    obtain ⟨last, rest, item, right⟩ := needs middle (by omega)
    refine ⟨front.push last, rest, ?_, ?_⟩
    · simp [decodeMany, before, item]
    · rw [Nat.succ_mul]
      omega

/-- Reading succeeds when there are enough bytes, and takes exactly `size` of them. -/
theorem decode_of_le (order : ByteOrder) {α : Type} (layout : Layout α) (bytes : Bytes)
    (enough : layout.size ≤ bytes.length) :
    ∃ value rest, layout.decode order bytes = some (value, rest) ∧
      rest.length + layout.size = bytes.length := by
  induction layout generalizing bytes with
  | @word α isWord =>
    simp only [size] at enough
    refine ⟨Word.ofBytes order (bytes.take (Word.width α)), bytes.drop (Word.width α), ?_, ?_⟩
    · simp [decode, Word.decode?, Bytes.split?, enough]
    · simp only [List.length_drop, size]
      omega
  | array count item inductionHypothesis =>
    exact decodeMany_isSome _ _ inductionHypothesis count bytes enough
  | done => exact ⟨(), bytes, rfl, rfl⟩
  | field name first rest headHypothesis tailHypothesis =>
    simp only [size] at enough
    obtain ⟨head, middle, before, left⟩ := headHypothesis bytes (by omega)
    obtain ⟨tail, after, item, right⟩ := tailHypothesis middle (by omega)
    refine ⟨(head, tail), after, ?_, ?_⟩
    · simp [decode, before, item]
    · simp only [size]
      omega
  | record name fields make parts make_parts parts_make inductionHypothesis =>
    obtain ⟨values, rest, item, right⟩ := inductionHypothesis bytes enough
    exact ⟨make values, rest, by simp [decode, item], right⟩

end Layout

/-- A structure with a fixed layout, written most significant byte first. -/
class Stored (α : Type) where
  layout : Layout α

namespace Stored

variable {α : Type} [Stored α]

/-- How many bytes the structure takes. -/
def size (α : Type) [Stored α] : Nat := (layout (α := α)).size

/-- Read the structure off the front of some bytes. -/
def decode? (bytes : Bytes) : Option (α × Bytes) := layout.decode .bigEndian bytes

/-- Read the structure from bytes that must be all of it. -/
def decodeWhole? (bytes : Bytes) : Option α :=
  match decode? bytes with
  | some (value, []) => some value
  | _ => none

/-- The bytes of the structure. -/
def encode (value : α) : Bytes := layout.encode .bigEndian value

/-- The structure with its name and fields. -/
def text (value : α) : String := layout.text value

/-- The structure whose words are all zero. -/
def zero (α : Type) [Stored α] : α := layout.zero

end Stored

end HfsPlus
