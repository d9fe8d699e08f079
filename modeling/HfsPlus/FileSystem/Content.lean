import HfsPlus.FileSystem.Trees
import HfsPlus.Hasher

/-!
# The contents of files

A fork of a file is read through the overflow tree, at any place or as a whole. A
whole fork is copied in chunks; each chunk is handed on and hashed before the next one
is read, so a copy that fails has given what lies before the failure. The journal of a
volume is not read, only the block that says where it is.
-/

namespace HfsPlus

/-- What is known of a fork after it was copied. -/
structure ForkCopy where
  /-- How many bytes were copied. -/
  bytes : Nat
  /-- The digest of the copied bytes, in hexadecimal digits. -/
  sha256 : String
  deriving DecidableEq, Repr

/-- A fork of a file, ready for reading. -/
def FileSystem.openFork (system : FileSystem) (file : CatalogFile) (kind : ForkKind) : Fork :=
  .ofData (file.fork kind) kind file.fileId system.blockSize

namespace Inspection

variable {m : Type → Type} [Monad m] [Logging m]

/-- Read up to `wanted` bytes of a fork. -/
def readFork (inspection : Inspection m) (offset wanted : Nat) :
    ExceptT Error (StateT Fork m) Bytes := do
  let extents ← Fork.beside inspection.extents
  Fork.readRange inspection.system.window extents.overflowSource offset wanted

/-- How many bytes of a fork are copied at a time. -/
def chunkSize (inspection : Inspection m) : Nat := max inspection.system.blockSize 65536

/-- Copy what follows `offset`, of which there are at most `left` bytes. Each chunk is
handed on, and if it is taken, it is hashed and collected; the last one comes first. -/
def copyFrom (inspection : Inspection m) (hasher : Hasher) (take : Bytes → ExceptT Error m Unit)
    (fork : Fork) (offset left : Nat) (hashed : hasher.State) (chunks : List Bytes) :
    m (Fork × List Bytes × Except Error hasher.State) :=
  if left = 0 then return (fork, chunks, .ok hashed)
  else do
    match ← ((inspection.readFork offset inspection.chunkSize).run.run fork) with
    | (.error cause, fork) => return (fork, chunks, .error cause)
    | (.ok [], fork) => return (fork, chunks, .ok hashed)
    | (.ok (first :: rest), fork) =>
      match ← (take (first :: rest)).run with
      | .error cause => return (fork, chunks, .error cause)
      | .ok () =>
        let count := rest.length + 1
        copyFrom inspection hasher take fork (offset + count) (left - count)
          (hasher.update hashed (first :: rest)) ((first :: rest) :: chunks)
termination_by left
decreasing_by omega

/-- Copy a fork of a file to whatever takes its chunks: the bytes that were taken, and
whether that was all. -/
def copyFork (inspection : Inspection m) (hasher : Hasher) (file : CatalogFile) (kind : ForkKind)
    (take : Bytes → ExceptT Error m Unit) : m (Bytes × Except Error ForkCopy) := do
  let fork := inspection.system.openFork file kind
  match ← inspection.extents.run with
  | .error cause => return ([], .error cause)
  | .ok _ =>
    match ← inspection.copyFrom hasher take fork 0 fork.logicalSize hasher.start [] with
    | (_, chunks, .error cause) => return (chunks.reverse.flatten, .error cause)
    | (fork, chunks, .ok hashed) =>
      let bytes := chunks.reverse.flatten
      log (.forkCopied file.fileId kind bytes.length fork.overflowRecords)
      return (bytes, .ok ⟨bytes.length, (hasher.finish hashed).hex⟩)

/-- The block that says where the journal is, if the volume is journaled. -/
def journalInfo (inspection : Inspection m) : ExceptT Error m (Option JournalInfoBlock) := do
  let header := inspection.system.header
  if header.attributes &&& journaledBit = 0 || header.journalInfoBlock = 0 then return none
  let offset := header.journalInfoBlock.toNat * inspection.system.blockSize
  let block ← inspection.system.window.readExact offset (Stored.size JournalInfoBlock)
  some <$> (Stored.read block : Except Error JournalInfoBlock)

end Inspection

end HfsPlus
