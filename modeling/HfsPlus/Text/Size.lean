import HfsPlus.Text.Number

/-!
# Sizes for reading

A number of bytes is shown with two places in the largest of KB, MB and GB that
it reaches, counted in powers of 1024, and plainly below that. The number first
loses what a 53-bit significand cannot hold, to the even neighbour on a tie; the
quotient is then exact, and its two places are rounded to the even neighbour on
a tie as well.
-/

namespace HfsPlus.Text

/-- A quotient of natural numbers, to the nearest one and to the even one on a tie. -/
def roundDiv (dividend divisor : Nat) : Nat :=
  let quotient := dividend / divisor
  let twice := 2 * (dividend % divisor)
  if twice < divisor then quotient
  else if divisor < twice then quotient + 1
  else if quotient % 2 == 0 then quotient else quotient + 1

/-- A number as a 53-bit significand can hold it. -/
def significand53 (number : Nat) : Nat :=
  let unit := 1 <<< (Nat.log2 number + 1 - 53)
  roundDiv number unit * unit

/-- Two places of a quotient. -/
def twoPlaces (dividend divisor : Nat) : String :=
  let hundredths := roundDiv (dividend * 100) divisor
  let places := hundredths % 100
  toString (hundredths / 100) ++ "." ++ toString (places / 10) ++ toString (places % 10)

/-- A number of bytes, for reading. -/
def size (bytes : Nat) : String :=
  let held := significand53 bytes
  if 1 <<< 30 ≤ held then twoPlaces held (1 <<< 30) ++ " GB"
  else if 1 <<< 20 ≤ held then twoPlaces held (1 <<< 20) ++ " MB"
  else if 1024 ≤ held then twoPlaces held 1024 ++ " KB"
  else toString bytes ++ " B"

end HfsPlus.Text
