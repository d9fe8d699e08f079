/-!
# Bytes and the words written in them

Everything on a disk is a list of bytes. A word of a fixed width is written as
its base-256 digits, most significant first on an HFS+ volume and least
significant first in a GUID partition table. `Word` names the seven widths the
structures use; each instance says how the word is a natural number below
`Bytes.bound width`, so that one pair of digit functions serves them all.

The small laws proved here are the ones every structure codec rests on: the
digits of a number have the width asked for, and digits and value determine each
other within that width.
-/

namespace HfsPlus

/-- The contents of a disk, a record or a name, byte by byte. -/
abbrev Bytes := List UInt8

/-- The order in which the digits of a word are written. -/
inductive ByteOrder where
  | bigEndian
  | littleEndian
  deriving DecidableEq, Repr

namespace Bytes

/-- The value of base-256 digits, most significant first. -/
def value (digits : Bytes) : Nat :=
  digits.foldl (fun total digit => total * 256 + digit.toNat) 0

/-- The `width` low base-256 digits of a number, most significant first. -/
def digits : (width : Nat) → Nat → Bytes
  | 0, _ => []
  | width + 1, number => digits width (number / 256) ++ [UInt8.ofNat number]

/-- The numbers of so many base-256 digits lie below this power of 256. -/
def bound : (width : Nat) → Nat
  | 0 => 1
  | width + 1 => bound width * 256

/-- Put the digits of a word into, or out of, the order in which they are
written. The same reversal serves both ways. -/
def ordered : ByteOrder → Bytes → Bytes
  | .bigEndian, bytes => bytes
  | .littleEndian, bytes => bytes.reverse

/-- The first `count` bytes and what follows them, if there are that many. -/
def split? (count : Nat) (bytes : Bytes) : Option (Bytes × Bytes) :=
  if count ≤ bytes.length then some (bytes.splitAt count) else none

/-- The `count` bytes that start at `start`, if all of them are there. -/
def slice? (bytes : Bytes) (start count : Nat) : Option Bytes :=
  if start + count ≤ bytes.length then some ((bytes.drop start).take count) else none

/-- The digit of a value below sixteen, in lower case. -/
def hexDigit (value : Nat) : Char :=
  if value < 10 then Char.ofNat (48 + value) else Char.ofNat (87 + value)

/-- Two lower-case hexadecimal digits for each byte. -/
def hex (bytes : Bytes) : String :=
  String.ofList (bytes.flatMap fun byte =>
    [hexDigit (byte.toNat / 16), hexDigit (byte.toNat % 16)])

/-- The bytes of an image file, as a list. -/
def ofByteArray (image : ByteArray) : Bytes := image.data.toList

/-- There are as many digits as the width says. -/
@[simp] theorem length_digits (width number : Nat) : (digits width number).length = width := by
  induction width generalizing number with
  | zero => rfl
  | succ width inductionHypothesis => simp [digits, inductionHypothesis]

/-- Reordering keeps the length. -/
@[simp] theorem length_ordered (order : ByteOrder) (bytes : Bytes) :
    (ordered order bytes).length = bytes.length := by
  cases order <;> simp [ordered]

/-- Reordering twice is no reordering. -/
@[simp] theorem ordered_ordered (order : ByteOrder) (bytes : Bytes) :
    ordered order (ordered order bytes) = bytes := by
  cases order <;> simp [ordered]

/-- A digit behind others counts once, and they count 256 times as much as before. -/
theorem value_append_singleton (front : Bytes) (last : UInt8) :
    value (front ++ [last]) = value front * 256 + last.toNat := by
  simp [value]

/-- A number that fits in the width is the value of its digits. -/
theorem value_digits (width number : Nat) (fits : number < bound width) :
    value (digits width number) = number := by
  induction width generalizing number with
  | zero =>
    have none : number = 0 := by simpa [bound] using fits
    simp [digits, value, none]
  | succ width inductionHypothesis =>
    have high : number / 256 < bound width := by
      rw [bound] at fits
      omega
    rw [digits, value_append_singleton, inductionHypothesis _ high]
    have low : (UInt8.ofNat number).toNat = number % 256 := by simp
    rw [low]
    omega

/-- Bytes are the digits of their own value. -/
theorem digits_value (bytes : Bytes) : digits bytes.length (value bytes) = bytes := by
  rw [← List.reverse_reverse bytes]
  induction bytes.reverse with
  | nil => rfl
  | cons last front inductionHypothesis =>
    have below := last.toNat_lt
    rw [List.reverse_cons, List.length_append, List.length_singleton, digits,
      value_append_singleton]
    have high : (value front.reverse * 256 + last.toNat) / 256 = value front.reverse := by omega
    have low : UInt8.ofNat (value front.reverse * 256 + last.toNat) = last := by
      apply UInt8.toNat_inj.mp
      simp only [UInt8.toNat_ofNat']
      omega
    rw [high, low, inductionHypothesis]

/-- The value of digits stays below the bound for their number. -/
theorem value_lt (bytes : Bytes) : value bytes < bound bytes.length := by
  rw [← List.reverse_reverse bytes]
  induction bytes.reverse with
  | nil => simp [value, bound]
  | cons last front inductionHypothesis =>
    have below := last.toNat_lt
    rw [List.reverse_cons, value_append_singleton, List.length_append, List.length_singleton,
      bound]
    omega

end Bytes

/-- A word of fixed width, as a natural number below `Bytes.bound width`. -/
class Word (α : Type) where
  /-- How many bytes the word takes. -/
  width : Nat
  toNat : α → Nat
  ofNat : Nat → α
  toNat_lt : ∀ word, toNat word < Bytes.bound width
  ofNat_toNat : ∀ word, ofNat (toNat word) = word
  toNat_ofNat : ∀ number, number < Bytes.bound width → toNat (ofNat number) = number
  /-- The decimal text of the word, with its sign if it has one. -/
  text : α → String

instance : Word UInt8 where
  width := 1
  toNat := UInt8.toNat
  ofNat := UInt8.ofNat
  toNat_lt word := word.toNat_lt
  ofNat_toNat word := by simp
  toNat_ofNat number fits := by
    simp only [Bytes.bound] at fits
    simp only [UInt8.toNat_ofNat']
    omega
  text word := toString word.toNat

instance : Word UInt16 where
  width := 2
  toNat := UInt16.toNat
  ofNat := UInt16.ofNat
  toNat_lt word := word.toNat_lt
  ofNat_toNat word := by simp
  toNat_ofNat number fits := by
    simp only [Bytes.bound] at fits
    simp only [UInt16.toNat_ofNat']
    omega
  text word := toString word.toNat

instance : Word UInt32 where
  width := 4
  toNat := UInt32.toNat
  ofNat := UInt32.ofNat
  toNat_lt word := word.toNat_lt
  ofNat_toNat word := by simp
  toNat_ofNat number fits := by
    simp only [Bytes.bound] at fits
    simp only [UInt32.toNat_ofNat']
    omega
  text word := toString word.toNat

instance : Word UInt64 where
  width := 8
  toNat := UInt64.toNat
  ofNat := UInt64.ofNat
  toNat_lt word := word.toNat_lt
  ofNat_toNat word := by simp
  toNat_ofNat number fits := by
    simp only [Bytes.bound] at fits
    simp only [UInt64.toNat_ofNat']
    omega
  text word := toString word.toNat

/-- A signed word is written as the unsigned word with the same bits. -/
instance : Word Int8 where
  width := 1
  toNat word := word.toUInt8.toNat
  ofNat number := (UInt8.ofNat number).toInt8
  toNat_lt word := word.toUInt8.toNat_lt
  ofNat_toNat word := by simp
  toNat_ofNat number fits := by
    simp only [Bytes.bound] at fits
    simp only [UInt8.toUInt8_toInt8, UInt8.toNat_ofNat']
    omega
  text word := toString word.toInt

instance : Word Int16 where
  width := 2
  toNat word := word.toUInt16.toNat
  ofNat number := (UInt16.ofNat number).toInt16
  toNat_lt word := word.toUInt16.toNat_lt
  ofNat_toNat word := by simp
  toNat_ofNat number fits := by
    simp only [Bytes.bound] at fits
    simp only [UInt16.toUInt16_toInt16, UInt16.toNat_ofNat']
    omega
  text word := toString word.toInt

instance : Word Int32 where
  width := 4
  toNat word := word.toUInt32.toNat
  ofNat number := (UInt32.ofNat number).toInt32
  toNat_lt word := word.toUInt32.toNat_lt
  ofNat_toNat word := by simp
  toNat_ofNat number fits := by
    simp only [Bytes.bound] at fits
    simp only [UInt32.toUInt32_toInt32, UInt32.toNat_ofNat']
    omega
  text word := toString word.toInt

namespace Word

variable {α : Type} [Word α]

/-- The bytes of a word. -/
def encode (order : ByteOrder) (word : α) : Bytes :=
  Bytes.ordered order (Bytes.digits (width α) (toNat word))

/-- The word that exactly these bytes spell. -/
def ofBytes (order : ByteOrder) (bytes : Bytes) : α :=
  ofNat (Bytes.value (Bytes.ordered order bytes))

/-- Take a word off the front. -/
def decode? (order : ByteOrder) (bytes : Bytes) : Option (α × Bytes) :=
  (Bytes.split? (width α) bytes).map fun (front, rest) => (ofBytes order front, rest)

/-- The big-endian word at a byte position, if it lies wholly inside. -/
def at? (bytes : Bytes) (position : Nat) : Option α :=
  (Bytes.slice? bytes position (width α)).map (ofBytes .bigEndian)

/-- The big-endian bytes of a word, the order used everywhere on an HFS+ volume. -/
abbrev bytes (word : α) : Bytes := encode .bigEndian word

/-- A word is written as many bytes as its width says. -/
@[simp] theorem length_encode (order : ByteOrder) (word : α) :
    (encode order word).length = width α := by
  simp [encode]

/-- Reading a word back gives the word. -/
@[simp] theorem ofBytes_encode (order : ByteOrder) (word : α) :
    (ofBytes order (encode order word) : α) = word := by
  rw [ofBytes, encode, Bytes.ordered_ordered, Bytes.value_digits _ _ (toNat_lt word),
    ofNat_toNat]

/-- Writing a word that was read gives the bytes it was read from. -/
theorem encode_ofBytes (order : ByteOrder) (bytes : Bytes) (exact : bytes.length = width α) :
    encode order (ofBytes order bytes : α) = bytes := by
  have inside : Bytes.value (Bytes.ordered order bytes) < Bytes.bound (width α) := by
    have bound := Bytes.value_lt (Bytes.ordered order bytes)
    rwa [Bytes.length_ordered, exact] at bound
  have spelled := Bytes.digits_value (Bytes.ordered order bytes)
  rw [Bytes.length_ordered, exact] at spelled
  rw [encode, ofBytes, toNat_ofNat _ inside, spelled, Bytes.ordered_ordered]

end Word

end HfsPlus
