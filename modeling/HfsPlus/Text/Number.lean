import HfsPlus.Bytes

/-!
# Numbers as text

Hexadecimal and octal texts and columns of fixed width. A hexadecimal number
carries the mark `0x`; a padded one is filled with zeros after the mark up to a
total width that counts the mark. A column is filled with spaces and never cut,
and its width counts characters.
-/

namespace HfsPlus.Text

/-- The digits of a number to a base between two and sixteen, in lower case. -/
def digitsIn (base number : Nat) : List Char := Nat.toDigits base number

/-- A number in hexadecimal, with its mark. -/
def hex (number : Nat) : String := "0x" ++ String.ofList (digitsIn 16 number)

/-- A number in hexadecimal, filled with zeros to `width` characters in all. -/
def hexPadded (width number : Nat) : String :=
  let digits := digitsIn 16 number
  "0x" ++ String.ofList (List.replicate (width - 2 - digits.length) '0' ++ digits)

/-- A signed number in hexadecimal: a negative one shows the 64 bits that stand
for it in two's complement. -/
def hexSigned (number : Int) : String := hex (number % UInt64.size).toNat

/-- A number in octal, without a mark. -/
def octal (number : Nat) : String := String.ofList (digitsIn 8 number)

/-- A text followed by spaces up to `width` characters. -/
def padRight (width : Nat) (text : String) : String :=
  text ++ String.ofList (List.replicate (width - text.length) ' ')

/-- A text preceded by spaces up to `width` characters. -/
def padLeft (width : Nat) (text : String) : String :=
  String.ofList (List.replicate (width - text.length) ' ') ++ text

end HfsPlus.Text
