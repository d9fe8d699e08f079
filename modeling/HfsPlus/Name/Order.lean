import HfsPlus.Name
import HfsPlus.Text.Lowercase

/-!
# The orders of names

Names are ordered by their units, the shorter one first where one continues the
other. A case-sensitive catalog compares the units as they are. Every other one
first folds them: letters become small, format characters that do not show are
left out, and the zero unit goes behind all others.
-/

namespace HfsPlus.Name

/-- Units that a folding comparison passes over: joiners, marks of direction and
the byte order mark. -/
def isIgnorable (unit : UInt16) : Bool :=
  let number := unit.toNat
  (0x200C ≤ number && number ≤ 0x200F) || (0x202A ≤ number && number ≤ 0x202E) ||
    (0x206A ≤ number && number ≤ 0x206F) || number == 0xFEFF

/-- Whether a unit is half of a pair. -/
def isSurrogate (unit : UInt16) : Bool := Text.Units.isHigh unit || Text.Units.isLow unit

/-- A unit as a folding comparison sees it; zero stands for a unit passed over. -/
def foldUnit (unit : UInt16) : UInt16 :=
  if unit = 0 then 0xFFFF
  else if isIgnorable unit then 0
  else if isSurrogate unit then unit
  else UInt16.ofNat (Text.Lowercase.lower unit.toNat)

/-- The units that a folding comparison compares. -/
def folded (units : List UInt16) : List UInt16 := (units.map foldUnit).filter (· ≠ 0)

/-- The order of unit sequences: by the first difference, and the shorter first
where there is none. -/
def compareUnits : List UInt16 → List UInt16 → Ordering
  | [], [] => .eq
  | [], _ :: _ => .lt
  | _ :: _, [] => .gt
  | left :: lefts, right :: rights => (compare left right).then (compareUnits lefts rights)

/-- The order of names unit by unit. -/
def compareBinary (left right : Name) : Ordering := compareUnits left.units right.units

/-- The order of names with letter case folded. -/
def compareFolding (left right : Name) : Ordering :=
  compareUnits (folded left.units) (folded right.units)

end HfsPlus.Name
