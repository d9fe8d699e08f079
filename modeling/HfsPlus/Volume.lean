import HfsPlus.Log
import HfsPlus.Source

/-!
# Volumes: windows onto a source

A volume is a part of a source: it starts somewhere and has a length, unless the
source does not know its own. Positions in it are counted from its start, and
nothing outside it is ever delivered: a read that starts inside is cut at the
end, and one that starts at or past the end delivers nothing.

A volume cut out of another one is cut to the bounds of its parent. Positions on
a source are below `2 ^ 64`; a start that would lie beyond stays at the last
position, and nothing lies past it.

`Window` is a volume reduced to what can be learned from it, its length and what
its reads deliver. Everything above the partition map works on windows.
-/

namespace HfsPlus

/-- The three partition maps. -/
inductive PartitionScheme where
  | applePartitionMap
  | guidPartitionTable
  | masterBootRecord
  deriving DecidableEq, Repr

/-- The name of a map for display. -/
def PartitionScheme.label : PartitionScheme → String
  | applePartitionMap => "Apple Partition Map"
  | guidPartitionTable => "GUID Partition Table"
  | masterBootRecord => "Master Boot Record"

/-- The short name of a map, for inspection. -/
def PartitionScheme.title : PartitionScheme → String
  | applePartitionMap => "Apm"
  | guidPartitionTable => "Gpt"
  | masterBootRecord => "Mbr"

/-- What a volume is, as far as whoever made it knows. -/
inductive VolumeKind where
  /-- A whole image or device. -/
  | image
  /-- An entry of a partition map. -/
  | partition (scheme : PartitionScheme) (index : Nat) (name typeName : String)
  /-- An HFS+ volume inside its wrapper. -/
  | embedded
  deriving DecidableEq, Repr

/-- The kind of a volume, for inspection. -/
def VolumeKind.inspected : VolumeKind → String
  | image => "Image"
  | partition scheme index name typeName =>
    Text.structured "Partition" [("scheme", scheme.title), ("index", toString index),
      ("name", Text.quoted name), ("type_name", Text.quoted typeName)]
  | embedded => "EmbeddedHfsPlus"

/-- A length and what reads deliver: all that can be learned from a volume. -/
structure Window where
  /-- The length in bytes, unless it is not known. -/
  length : Option Nat
  /-- The bytes from a position on, as many as wanted or as there are. -/
  content : (offset wanted : Nat) → Except Error Bytes

namespace Window

variable {m : Type → Type} [Monad m] [Logging m]

/-- How many of the wanted bytes lie inside the length. -/
def clip (length : Option Nat) (offset wanted : Nat) : Nat :=
  match length with
  | none => wanted
  | some length => min wanted (length - offset)

/-- Whether a position lies inside the length. -/
def holds (length : Option Nat) (offset : Nat) : Bool :=
  match length with
  | none => true
  | some length => offset < length

/-- Read up to `wanted` bytes. A read that starts inside is noted. -/
def read (window : Window) (offset wanted : Nat) : ExceptT Error m Bytes := do
  let bytes ← window.content offset wanted
  if holds window.length offset then
    log (.volumeRead offset (clip window.length offset wanted) bytes.length)
  return bytes

/-- Read exactly `wanted` bytes, or fail with how many there were. -/
def readExact (window : Window) (offset wanted : Nat) : ExceptT Error m Bytes := do
  let bytes ← window.read offset wanted
  if bytes.length = wanted then return bytes
  else throw (.shortRead offset wanted bytes.length)

/-- Read `wanted` bytes if there are that many. -/
def readWhole? (window : Window) (offset wanted : Nat) : ExceptT Error m (Option Bytes) := do
  let bytes ← window.read offset wanted
  return if bytes.length = wanted then some bytes else none

end Window

/-- Positions on a source are below this bound. -/
def positionBound : Nat := UInt64.size

/-- A part of a source. -/
structure Volume where
  source : Source
  /-- The file or device behind the source, if there is one. -/
  path : Option String
  /-- The start on the source. -/
  offset : Nat
  /-- The length in bytes, unless the source does not know its own. -/
  length : Option Nat
  sectorSize : Nat
  /-- How often this was cut out of something else. -/
  depth : Nat
  kind : VolumeKind

namespace Volume

/-- The size of a sector where nothing else is known. -/
def defaultSectorSize : Nat := 512

/-- A whole source as a volume. A source of unknown size has no length, and a
sector size of zero stands for the default. -/
def ofSource (source : Source) (sectorSize : Nat) : Volume where
  source := source
  path := none
  offset := 0
  length := if source.size = 0 then none else some source.size
  sectorSize := if sectorSize = 0 then defaultSectorSize else sectorSize
  depth := 0
  kind := .image

/-- An image in memory as a volume. Its length is known even if it is zero. -/
def ofImage (image : ByteArray) : Volume :=
  { ofSource (.ofImage image) 0 with length := some image.size }

/-- The part of a volume that starts at `offset` and has `length` bytes, cut to
the bounds of the volume. -/
def sub (volume : Volume) (offset length : Nat) (kind : VolumeKind) : Volume where
  source := volume.source
  path := volume.path
  offset := min (volume.offset + offset) (positionBound - 1)
  length :=
    match volume.length with
    | none => some length
    | some outer => some (min length (outer - offset))
  sectorSize := volume.sectorSize
  depth := volume.depth + 1
  kind := kind

/-- The bytes from a position on: `wanted` of them, or as many as lie inside the
volume and its source. -/
def content (volume : Volume) (offset wanted : Nat) : Except Error Bytes :=
  if !Window.holds volume.length offset then .ok []
  else if positionBound ≤ volume.offset + offset then .ok []
  else volume.source.gather (volume.offset + offset) (Window.clip volume.length offset wanted)

/-- The volume, reduced to its length and its bytes. -/
def window (volume : Volume) : Window := ⟨volume.length, volume.content⟩

/-- A volume with its structure, given how many parts were attached to it. -/
def inspected (volume : Volume) (children : Nat) : String :=
  Text.structured "Volume" [("path", Text.optional (volume.path.map Text.quoted)),
    ("kind", volume.kind.inspected), ("offset", toString volume.offset),
    ("length", Text.optional (volume.length.map toString)),
    ("sector_size", toString volume.sectorSize), ("depth", toString volume.depth),
    ("children", toString children)]

end Volume

/-- What is found at a path. -/
inductive FileStatus where
  | missing
  | denied
  /-- The system refuses the path for a reason of its own. -/
  | failed (reason : String)
  | file (source : Source)
  | device (source : Source) (sectorSize : Nat)
  /-- Something that holds no bytes to inspect, such as a directory. -/
  | other

/-- Open what is at a path. The length of a file is known even if it is zero; a
device of length zero does not say how long it is. -/
def Volume.open {m : Type → Type} [Monad m] [Logging m] (path : String) :
    FileStatus → ExceptT Error m Volume
  | .missing => throw (.notFound path)
  | .denied => throw (.permissionDenied path)
  | .failed reason => throw (.io reason)
  | .other => throw (.notReadable path)
  | .file source => do
    log (.fileOpened path source.size defaultSectorSize)
    return { ofSource source 0 with path := some path, length := some source.size }
  | .device source sectorSize => do
    let volume := { ofSource source sectorSize with path := some path }
    log (.fileOpened path source.size volume.sectorSize)
    return volume

/-- A volume and the parts that were found in it. -/
structure Disk where
  volume : Volume
  children : List Volume

end HfsPlus
