import HfsPlus.Bytes

/-!
# Bytes read as UTF-8 text

Fixed-size text fields on disk are meant to hold UTF-8 but may hold anything.
Reading never fails: the longest run of bytes that could still have become a
character, once it cannot, is shown as a single replacement character, and
reading goes on with the byte that broke it off.

The table of second bytes excludes overlong forms, surrogates and values above
the last code point, so an accepted sequence is always a valid character.
-/

namespace HfsPlus.Text.Octets

/-- The character shown where bytes spell none. -/
def replacement : Char := Char.ofNat 0xFFFD

/-- A character under construction: the bits read so far and the ranges in which
the bytes still to come must lie. -/
structure Pending where
  bits : Nat
  ranges : List (Nat × Nat)

/-- What a byte means at the start of a character: a character of its own, the
start of a longer one, or nothing. -/
inductive Lead where
  | single (char : Char)
  | opens (pending : Pending)
  | invalid

/-- The range of an ordinary continuation byte. -/
def continuation : Nat × Nat := (0x80, 0xBF)

/-- The meaning of a first byte. The narrowed second ranges are the ones that
exclude overlong forms, surrogates and numbers past the last code point. -/
def lead (byte : Nat) : Lead :=
  if byte < 0x80 then .single (Char.ofNat byte)
  else if byte < 0xC2 then .invalid
  else if byte < 0xE0 then .opens ⟨byte - 0xC0, [continuation]⟩
  else if byte = 0xE0 then .opens ⟨0, [(0xA0, 0xBF), continuation]⟩
  else if byte = 0xED then .opens ⟨0xD, [(0x80, 0x9F), continuation]⟩
  else if byte < 0xF0 then .opens ⟨byte - 0xE0, [continuation, continuation]⟩
  else if byte = 0xF0 then .opens ⟨0, [(0x90, 0xBF), continuation, continuation]⟩
  else if byte < 0xF4 then .opens ⟨byte - 0xF0, [continuation, continuation, continuation]⟩
  else if byte = 0xF4 then .opens ⟨4, [(0x80, 0x8F), continuation, continuation]⟩
  else .invalid

/-- Start a character at a byte: what is finished at once, and what stays open. -/
def start (byte : Nat) : List Char × Option Pending :=
  match lead byte with
  | .single char => ([char], none)
  | .opens pending => ([], some pending)
  | .invalid => ([replacement], none)

/-- Take one more byte. A byte outside the range that is due closes the open
character with a replacement and starts anew. -/
def step (open? : Option Pending) (byte : Nat) : List Char × Option Pending :=
  match open? with
  | some ⟨bits, (low, high) :: more⟩ =>
    if low ≤ byte && byte ≤ high then
      let bits := bits * 64 + (byte - 0x80)
      match more with
      | [] => ([Char.ofNat bits], none)
      | _ => ([], some ⟨bits, more⟩)
    else
      let (shown, open?) := start byte
      (replacement :: shown, open?)
  | _ => start byte

/-- Read bytes for display, from an open character on. -/
def decodeFrom : Option Pending → Bytes → List Char
  | none, [] => []
  | some _, [] => [replacement]
  | open?, byte :: rest =>
    let (shown, open?) := step open? byte.toNat
    shown ++ decodeFrom open? rest

/-- Read bytes for display. -/
def decode (bytes : Bytes) : String := String.ofList (decodeFrom none bytes)

/-- The text of a fixed-size field, which ends at the first zero byte. -/
def decodeField (bytes : Bytes) : String := decode (bytes.takeWhile (· ≠ 0))

end HfsPlus.Text.Octets
