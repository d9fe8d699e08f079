import HfsPlus.Name
import HfsPlus.Proofs.Layout
import Mathlib.Data.List.Basic

/-!
# Stored names

A name is read exactly if its count is there, is one that a name may have, and all its units are
there. What is read is the name whose stored form the bytes start with, whatever lies behind it.
-/

namespace HfsPlus

namespace Name

/-- The bytes of some units are these units. -/
theorem unitsOf_flatMap (units : List UInt16) : unitsOf (units.flatMap Word.bytes) = units := by
  induction units with
  | nil => rfl
  | cons unit later inductionHypothesis =>
    obtain ⟨high, low, written⟩ := List.length_eq_two.mp (Word.length_encode .bigEndian unit)
    have back : (Word.ofBytes .bigEndian [high, low] : UInt16) = unit := by
      rw [← written, Word.ofBytes_encode]
    rw [List.flatMap_cons, Word.bytes, written, List.cons_append, List.cons_append,
      List.nil_append, unitsOf, back, inductionHypothesis]

/-- The other way round, bytes that come in pairs are the bytes of their units. The induction is
on the number of pairs. -/
theorem flatMap_unitsOf (count : Nat) (bytes : Bytes) (pairs : bytes.length = 2 * count) :
    (unitsOf bytes).flatMap Word.bytes = bytes ∧ (unitsOf bytes).length = count := by
  induction count generalizing bytes with
  | zero =>
    have empty : bytes = [] := List.length_eq_zero_iff.mp pairs
    subst empty
    exact ⟨rfl, rfl⟩
  | succ count inductionHypothesis =>
    match bytes, pairs with
    | high :: low :: rest, pairs =>
      rw [List.length_cons, List.length_cons] at pairs
      obtain ⟨written, counted⟩ := inductionHypothesis rest (by omega)
      have pair : Word.bytes (Word.ofBytes .bigEndian [high, low] : UInt16) = [high, low] :=
        Word.encode_ofBytes _ _ rfl
      rw [unitsOf, List.flatMap_cons, List.length_cons, written, counted, pair]
      exact ⟨rfl, rfl⟩

/-- The units of a name take two bytes each. -/
theorem length_flatMap_units (units : List UInt16) :
    (units.flatMap Word.bytes).length = 2 * units.length :=
  Word.length_flatMap id units

/-- A stored name is as long as it says. -/
theorem length_encode (name : Name) : name.encode.length = name.encodedLength := by
  rw [encode, List.length_append, Word.length_encode, Word.width_uint16, length_flatMap_units,
    encodedLength]

/-- The count of a name that is short enough is its count in bytes too. -/
theorem toNat_length {name : Name} (short : name.units.length ≤ maxUnits) :
    (UInt16.ofNat name.units.length).toNat = name.units.length := by
  apply UInt16.toNat_ofNat_of_lt'
  rw [maxUnits] at short
  rw [UInt16.size]
  omega

/-- A name is read from the bytes that start with its stored form, if it has no more units than a
name may have. -/
theorem decode_eq_ok {bytes : Bytes} {name : Name} {length : Nat} :
    decode bytes = .ok (name, length) ↔
      name.units.length ≤ maxUnits ∧ name.encode <+: bytes ∧ length = name.encodedLength := by
  constructor
  · intro read
    unfold decode at read
    split at read
    next => cases read
    next count found =>
    obtain ⟨-, counted⟩ := Word.at?_eq_some.mp found
    rw [List.drop_zero] at counted
    dsimp only at read
    split at read
    next => cases read
    next short =>
    split at read
    next => cases read
    next stored cut =>
    obtain ⟨⟩ := read
    obtain ⟨-, pairs, within⟩ := Bytes.slice?_eq_some.mp cut
    obtain ⟨written, units⟩ := flatMap_unitsOf _ stored pairs
    refine ⟨?_, ?_, ?_⟩
    · rw [units]
      omega
    · rw [encode, Bytes.append_prefix, units, UInt16.ofNat_toNat, written, Word.length_encode]
      exact ⟨counted, within⟩
    · rw [encodedLength, units]
  · rintro ⟨short, within, rfl⟩
    obtain ⟨counted, units⟩ := Bytes.append_prefix.mp within
    rw [Word.length_encode, Word.width_uint16] at units
    have room := within.length_le
    rw [length_encode, encodedLength] at room
    have found : Word.at? bytes 0 = some (UInt16.ofNat name.units.length) :=
      Word.at?_eq_some.mpr ⟨Nat.zero_le _, counted⟩
    have cut : bytes.slice? 2 (2 * name.units.length) = some (name.units.flatMap Word.bytes) :=
      Bytes.slice?_eq_some.mpr ⟨by omega, length_flatMap_units _, units⟩
    unfold decode
    rw [found]
    dsimp only
    rw [toNat_length short, if_neg (by omega), cut]
    dsimp only
    rw [unitsOf_flatMap, encodedLength]

/-- What bytes are refused for that should hold a name. -/
def causes (bytes : Bytes) : List Error :=
  [.invalid .nameWithoutLength, .invalid (.nameTooLong (Bytes.value (bytes.take 2))),
    .invalid (.nameCut (Bytes.value (bytes.take 2)) bytes.length)]

/-- A name is refused for its count alone: it is missing, too large, or more than is there. -/
theorem mem_causes {bytes : Bytes} {cause : Error} (refused : decode bytes = .error cause) :
    cause ∈ causes bytes := by
  unfold decode at refused
  split at refused
  next =>
    obtain ⟨⟩ := refused
    simp [causes]
  next count found =>
  obtain ⟨-, counted⟩ := Word.at?_eq_some.mp found
  have told : Bytes.value (bytes.take 2) = count.toNat := (Word.prefix_iff.mp counted).2
  dsimp only at refused
  split at refused
  next =>
    obtain ⟨⟩ := refused
    simp [causes, told]
  next =>
  split at refused
  next =>
    obtain ⟨⟩ := refused
    simp [causes, told]
  next => cases refused

/-- Bytes that hold a whole name: its count, which is one that a name may have, and as many units
as it says. -/
structure Whole (bytes : Bytes) : Prop where
  counted : 2 ≤ bytes.length
  short : Bytes.value (bytes.take 2) ≤ maxUnits
  fits : 2 + 2 * Bytes.value (bytes.take 2) ≤ bytes.length

/-- Bytes hold a whole name exactly if they start with the stored form of one. -/
theorem whole_iff {bytes : Bytes} :
    Whole bytes ↔ ∃ name : Name, name.units.length ≤ maxUnits ∧ name.encode <+: bytes := by
  constructor
  · rintro ⟨counted, short, fits⟩
    have pairs : ((bytes.drop 2).take (2 * Bytes.value (bytes.take 2))).length =
        2 * Bytes.value (bytes.take 2) := by
      rw [List.length_take, List.length_drop]
      omega
    obtain ⟨written, units⟩ := flatMap_unitsOf _ _ pairs
    have front : Word.bytes (UInt16.ofNat (Bytes.value (bytes.take 2))) = bytes.take 2 :=
      Word.encode_ofBytes .bigEndian (bytes.take 2) (List.length_take_of_le counted)
    refine ⟨⟨unitsOf ((bytes.drop 2).take (2 * Bytes.value (bytes.take 2)))⟩, ?_, ?_⟩
    · rwa [units]
    · rw [encode, Bytes.append_prefix, units, written, front, List.length_take_of_le counted]
      exact ⟨List.take_prefix _ _, List.take_prefix _ _⟩
  · rintro ⟨name, short, within⟩
    have room := within.length_le
    rw [length_encode, encodedLength] at room
    obtain ⟨counted, -⟩ := Bytes.append_prefix.mp within
    have count : Bytes.value (bytes.take 2) = name.units.length :=
      (Word.prefix_iff.mp counted).2.trans (toNat_length short)
    constructor
    case counted => omega
    case short => rwa [count]
    case fits => rwa [count]

end Name

end HfsPlus
