import HfsPlus.Error

/-!
# Words at fixed places of keys and records

Keys and records of varying length hold words at fixed places. A record that ends
before such a word is refused with its name, its length and the place.
-/

namespace HfsPlus

/-- The word at a place of something, most significant byte first. -/
def Word.field {α : Type} [Word α] (subject : String) (bytes : Bytes) (position : Nat) :
    Except Error α :=
  match Word.at? bytes position with
  | some word => .ok word
  | none => .error (.invalid (.fieldCut subject bytes.length position))

/-- The fork that a byte in a key stands for. -/
def ForkKind.ofByte (byte : UInt8) : Except Error ForkKind :=
  (Coded.ofCode byte.toNat).mapError UnknownCode.toError

end HfsPlus
