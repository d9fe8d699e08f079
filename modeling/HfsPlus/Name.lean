import HfsPlus.Error
import HfsPlus.Text.Quoted
import HfsPlus.Text.Units

/-!
# Names

A file, folder or attribute is named by up to 255 UTF-16 code units, stored
behind their count. The units are kept as they are; a name with a lone surrogate
is a name like any other and only shows with the replacement character. Where a
path is written, a slash inside a name changes places with a colon, because the
slash separates the components of the path.
-/

namespace HfsPlus

/-- A name, by its UTF-16 code units. -/
structure Name where
  units : List UInt16
  deriving DecidableEq, Repr

namespace Name

/-- The name without units, under which thread records are kept. -/
def empty : Name := ⟨[]⟩

/-- The greatest number of units in a stored name. -/
def maxUnits : Nat := 255

/-- The characters of a name, as far as its units spell any. -/
def characters (name : Name) : List Char := Text.Units.decode name.units

/-- The name for display. -/
def text (name : Name) : String := String.ofList name.characters

/-- The name in quotes, for inspection. -/
def inspected (name : Name) : String := Text.quoted name.text

/-- The name of a text. -/
def ofCharacters (characters : List Char) : Name := ⟨Text.Units.encode characters⟩

/-- The name of a text. -/
def ofText (text : String) : Name := ofCharacters text.toList

/-- Put one character in the place of another. -/
def replace (old new char : Char) : Char := if char = old then new else char

/-- The characters of a name as a component of a path. -/
def posixCharacters (name : Name) : List Char := name.characters.map (replace '/' ':')

/-- The name as a component of a path. -/
def toPosix (name : Name) : String := String.ofList name.posixCharacters

/-- The name that a component of a path stands for. -/
def ofPosixCharacters (component : List Char) : Name :=
  ofCharacters (component.map (replace ':' '/'))

/-- The name that a component of a path stands for. -/
def ofPosix (component : String) : Name := ofPosixCharacters component.toList

/-- The units in bytes that hold nothing else; an odd byte at the end is left out. -/
def unitsOf : Bytes → List UInt16
  | high :: low :: rest => Word.ofBytes .bigEndian [high, low] :: unitsOf rest
  | _ => []

/-- Read a name and the number of bytes it takes, its count included. -/
def decode (bytes : Bytes) : Except Error (Name × Nat) :=
  match (Word.at? bytes 0 : Option UInt16) with
  | none => .error (.invalid .nameWithoutLength)
  | some length =>
    let count := length.toNat
    if maxUnits < count then .error (.invalid (.nameTooLong count))
    else
      match Bytes.slice? bytes 2 (2 * count) with
      | none => .error (.invalid (.nameCut count bytes.length))
      | some stored => .ok (⟨unitsOf stored⟩, 2 + 2 * count)

/-- The stored form: the count, as far as a word holds it, and the units. -/
def encode (name : Name) : Bytes :=
  Word.bytes (UInt16.ofNat name.units.length) ++ name.units.flatMap Word.bytes

/-- How many bytes the stored form takes. -/
def encodedLength (name : Name) : Nat := 2 + 2 * name.units.length

end Name

end HfsPlus
