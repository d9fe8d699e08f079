import HfsPlus.Structure.Volume
import HfsPlus.Volume

/-!
# The file system on a volume

A volume holds a file system if its header block carries the signature of HFS+ or
of its case-sensitive variant and the size of an allocation block is a power of
two. A volume of the older system may wrap such a volume: its own header block
then says where the embedded one lies, which must be inside the wrapper. A wrapper
inside a wrapper is not followed.

What is read of the file system comes through the window alone. The volume is
remembered beside it for display.
-/

namespace HfsPlus

/-- Where a volume of the older system keeps the volume embedded in it. -/
structure Wrapper where
  name : String
  offset : Nat
  length : Nat
  deriving DecidableEq, Repr

/-- A file system: the bytes it lies in and its description. -/
structure FileSystem where
  window : Window
  header : VolumeHeader
  /-- Which of the two variants it is. -/
  signature : VolumeSignature
  /-- The wrapper around it, if there is one. -/
  wrapper : Option Wrapper

/-- A file system with the volume it was found on. -/
structure Mount where
  volume : Volume
  system : FileSystem

namespace FileSystem

/-- Whether names may be case sensitive. -/
def isHfsx (system : FileSystem) : Bool := system.signature == .hfsX

/-- The size of an allocation block in bytes. -/
def blockSize (system : FileSystem) : Nat := system.header.blockSize.toNat

/-- Whether a number is a power of two. -/
def isPowerOfTwo (number : Nat) : Bool := number != 0 && number == 1 <<< Nat.log2 number

variable {m : Type → Type} [Monad m] [Logging m]

/-- The header block of a volume. -/
def readHeader (window : Window) : ExceptT Error m Bytes :=
  window.readExact volumeHeaderOffset volumeHeaderSize

/-- The signature at the start of a header block. -/
def signatureOf (block : Bytes) : UInt16 := Word.ofBytes .bigEndian (block.take 2)

/-- The file system whose header block was read. -/
def ofHeader (window : Window) (block : Bytes) (wrapper : Option Wrapper) :
    ExceptT Error m FileSystem := do
  let number := signatureOf block
  let signature ←
    match (Coded.ofCode number.toNat : Except UnknownCode VolumeSignature) with
    | .ok .hfsPlus => pure VolumeSignature.hfsPlus
    | .ok .hfsX => pure VolumeSignature.hfsX
    | _ => throw (.notHfsPlus number)
  let header : VolumeHeader ← Stored.read block
  if !isPowerOfTwo header.blockSize.toNat then
    throw (.invalid (.blockSize header.blockSize.toNat))
  log (.volumeOpened signature header.version header.blockSize header.totalBlocks
    header.fileCount header.folderCount)
  return ⟨window, header, signature, wrapper⟩

end FileSystem

/-- The file system on a volume, looking through one wrapper. -/
def Volume.mount {m : Type → Type} [Monad m] [Logging m] (volume : Volume) :
    ExceptT Error m Mount := do
  let block ← FileSystem.readHeader volume.window
  let signature := FileSystem.signatureOf block
  if signature ≠ 0x4244 then
    return ⟨volume, ← FileSystem.ofHeader volume.window block none⟩
  let directory : MasterDirectoryBlock ← Stored.read block
  if directory.embedSignature ≠ 0x482B then throw (.notHfsPlus signature)
  let offset := directory.embeddedOffset
  let length := directory.embeddedLength
  let outside := volume.length.any fun outer => outer < offset + length
  if length = 0 ∨ outside then throw (.wrapperOverrun offset length volume.length)
  log (.wrapperFound directory.name offset length)
  let inner := volume.sub offset length .embedded
  let block ← FileSystem.readHeader inner.window
  return ⟨inner, ← FileSystem.ofHeader inner.window block (some ⟨directory.name, offset, length⟩)⟩

/-- A mounted file system, for inspection. -/
def Mount.inspected (mount : Mount) : String :=
  let wrapper := mount.system.wrapper.map fun wrapper =>
    Text.structured "Wrapper" [("name", Text.quoted wrapper.name),
      ("offset", toString wrapper.offset), ("length", toString wrapper.length)]
  "Hfs \x7b " ++ ", ".intercalate ["volume: " ++ mount.volume.inspected 0,
    "signature: " ++ Coded.title mount.system.signature, "wrapper: " ++ Text.optional wrapper,
    ".."] ++ " \x7d"

end HfsPlus
