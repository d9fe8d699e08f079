import HfsPlus.Partition.Map
import HfsPlus.Structure.Volume

/-!
# Choosing the volume to inspect

A disk with partitions is searched for the first one that carries the signature
of an HFS volume where the header block lies; a partition's declared type plays
no part. A disk without partitions may be such a volume itself.
-/

namespace HfsPlus

/-- Where an HFS volume was found on a disk. -/
inductive Selection where
  /-- The disk is the volume. -/
  | whole (volume : Volume)
  /-- The part with this number is the volume. -/
  | part (index : Nat) (volume : Volume)

/-- The selected volume. -/
def Selection.volume : Selection → Volume
  | whole volume => volume
  | part _ volume => volume

variable {m : Type → Type} [Monad m] [Logging m]

/-- Whether a volume carries the signature of an HFS volume of any kind. -/
def Volume.hasHfsSignature (volume : Volume) : ExceptT Error m Bool := do
  let some bytes ← volume.window.readWhole? volumeHeaderOffset 2 | return false
  let signature : UInt16 := Word.ofBytes .bigEndian bytes
  return match (Coded.ofCode signature.toNat : Except UnknownCode VolumeSignature) with
    | .ok _ => true
    | .error _ => false

/-- The first of some parts with a signature, the parts numbered from `index` on. -/
def firstHfsPart : (index : Nat) → List Volume → ExceptT Error m (Option Selection)
  | _, [] => return none
  | index, part :: later => do
    if ← part.hasHfsSignature then
      log (.partitionSelected part.offset part.kind.inspected)
      return some (.part index part)
    else firstHfsPart (index + 1) later

/-- The HFS volume of a disk, if there is one. -/
def Disk.findHfs (disk : Disk) : ExceptT Error m (Option Selection) := do
  if disk.children.isEmpty then
    return if ← disk.volume.hasHfsSignature then some (.whole disk.volume) else none
  else firstHfsPart 0 disk.children

end HfsPlus
