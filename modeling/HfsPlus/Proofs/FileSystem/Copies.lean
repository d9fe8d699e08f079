import HfsPlus.Proofs.Digest
import HfsPlus.Proofs.FileSystem.History
import HfsPlus.Proofs.FileSystem.Mounting
import HfsPlus.Proofs.FileSystem.Paths
import HfsPlus.Proofs.FileSystem.Surroundings
import HfsPlus.Proofs.Fork.Contents

/-!
# Copies are whole and exact

A fork is copied chunk by chunk to something that takes the chunks, a writer, which has a state of
its own and may refuse one. Reading and remembering trees does not touch the writer, and it is
shown each chunk once and in order. `Copies` is what such a copy comes to, with a constructor for
each thing that may happen next. Whatever has been taken of a fork is the beginning of its bytes,
and a copy that succeeds has had all of them taken, in whatever chunks.

A copy fails if a chunk is refused, or if the fork cannot be read, `Unreadable`.
-/

namespace HfsPlus

namespace FileSystem

end FileSystem

section Copying

variable {m : Type → Type} [Monad m] [Logging m]

namespace Inspection

end Inspection

end Copying

section Definitions

variable (system : FileSystem) (extents : Tree ExtentKey ExtentRecord) (file : CatalogFile)
variable (kind : ForkKind)

/-- Where on the volume a byte of a fork of a file lies. -/
def FileSystem.Lies (position place : Nat) : Prop :=
  Fork.Lies (extents.direct (m := Id)).overflowSource (file.fork kind) kind file.fileId
    system.blockSize position place

/-- Some bytes are those of a fork from a position on: the volume supplies each of them where it
lies. -/
def FileSystem.Supplied (position : Nat) (bytes : Bytes) : Prop :=
  ∀ index byte, bytes[index]? = some byte →
    ∃ place, system.Lies extents file kind (position + index) place ∧
      system.window.Supplies place byte

/-- A fork cannot be read, for some reason: one of its blocks is not mapped, or the volume does not
deliver some bytes that follow each other on it. -/
def FileSystem.Unreadable (cause : Error) : Prop :=
  ∃ index < (file.fork kind).logicalSize.toNat,
    Fork.Unmapped (extents.direct (m := Id)).overflowSource (file.fork kind) kind file.fileId
      (index / system.blockSize) cause ∨
    ∃ start length, 0 < length ∧ index + length ≤ (file.fork kind).logicalSize.toNat ∧
      (∀ ahead < length, system.Lies extents file kind (index + ahead) (start + ahead)) ∧
      (system.window.readExact start length : ExceptT Error Id Bytes).run = .error cause

/-- As many blocks are given to a fork as it is long. -/
def FileSystem.Fits : Prop :=
  (file.fork kind).logicalSize.toNat ≤ (file.fork kind).totalBlocks.toNat * system.blockSize

variable {ω : Type} (take : Bytes → ExceptT Error (StateM ω) Unit)

/-- A writer takes some chunks one after the other. -/
inductive Takes : ω → List Bytes → ω → Prop
  | none {writer : ω} : Takes writer [] writer
  | next {writer after last : ω} {chunk : Bytes} {later : List Bytes} :
    (take chunk).run.run writer = (.ok (), after) → Takes after later last →
    Takes writer (chunk :: later) last

/-- What copying comes to from a position on, where so many bytes are left: the chunks that the
writer takes, and how it ends. -/
inductive Copies : (position left : Nat) → ω → List Bytes → Except Error Unit → ω → Prop
  | complete {position : Nat} {writer : ω} : Copies position 0 writer [] (.ok ()) writer
  | unread {position left : Nat} {writer : ω} {cause : Error} :
    (system.Fits file kind → system.Unreadable extents file kind cause) →
    Copies position left writer [] (.error cause) writer
  | refused {position left : Nat} {writer after : ω} {chunk : Bytes} {cause : Error} :
    system.Supplied extents file kind position chunk →
    (take chunk).run.run writer = (.error cause, after) →
    Copies position left writer [] (.error cause) after
  | taken {position left : Nat} {writer after last : ω} {chunk : Bytes} {later : List Bytes}
    {outcome : Except Error Unit} :
    chunk.length ≤ left → system.Supplied extents file kind position chunk →
    (take chunk).run.run writer = (.ok (), after) →
    Copies (position + chunk.length) (left - chunk.length) after later outcome last →
    Copies position left writer (chunk :: later) outcome last

end Definitions

section Consequences

variable {system : FileSystem} {extents : Tree ExtentKey ExtentRecord} {file : CatalogFile}
variable {kind : ForkKind} {position left : Nat}

/-- Bytes of a fork follow each other. -/
theorem FileSystem.Supplied.append {front behind : Bytes}
    (first : system.Supplied extents file kind position front)
    (second : system.Supplied extents file kind (position + front.length) behind) :
    system.Supplied extents file kind position (front ++ behind) := by
  intro index byte holds
  by_cases here : index < front.length
  · rw [List.getElem?_append_left here] at holds
    exact first index byte holds
  · rw [List.getElem?_append_right (by omega)] at holds
    obtain ⟨place, lies, supplies⟩ := second _ byte holds
    refine ⟨place, ?_, supplies⟩
    rwa [show position + front.length + (index - front.length) = position + index by omega] at lies

/-- Where the volume supplies one byte at each position, a fork has one byte at each of its own. -/
theorem FileSystem.Supplied.unique (coherent : system.window.Coherent) {bytes others : Bytes}
    (supplied : system.Supplied extents file kind position bytes)
    (also : system.Supplied extents file kind position others)
    (length : bytes.length = others.length) : bytes = others := by
  refine List.ext_getElem length fun index inside within => ?_
  obtain ⟨place, lies, supplies⟩ := supplied index _ (List.getElem?_eq_getElem inside)
  obtain ⟨other, liesThere, otherSupplies⟩ := also index _ (List.getElem?_eq_getElem within)
  obtain rfl := Fork.Lies.unique lies liesThere
  exact coherent.unique supplies otherSupplies

variable {ω : Type} {take : Bytes → ExceptT Error (StateM ω) Unit} {writer last : ω}
variable {chunks : List Bytes} {outcome : Except Error Unit}

/-- Whatever is taken of a fork is its bytes from the start on. Induct over the copy. -/
theorem Copies.supplied
    (copies : Copies system extents file kind take position left writer chunks outcome last) :
    system.Supplied extents file kind position chunks.flatten ∧
      chunks.flatten.length ≤ left := by
  induction copies with
  | complete => exact ⟨nofun, Nat.zero_le _⟩
  | unread _ => exact ⟨nofun, Nat.zero_le _⟩
  | refused _ _ => exact ⟨nofun, Nat.zero_le _⟩
  | taken within here _ _ inductionHypothesis =>
    obtain ⟨behind, length⟩ := inductionHypothesis
    rw [List.flatten_cons, List.length_append]
    exact ⟨here.append behind, by omega⟩

/-- A copy that fails has some chunks taken, and then the fork could not be read or a further chunk
was refused. -/
theorem Copies.failed
    (copies : Copies system extents file kind take position left writer chunks outcome last)
    {cause : Error} (failed : outcome = .error cause) :
    ∃ middle, Takes take writer chunks middle ∧
      (last = middle ∧
          (system.Fits file kind → system.Unreadable extents file kind cause) ∨
        ∃ chunk, (take chunk).run.run middle = (.error cause, last)) := by
  induction copies with
  | complete => cases failed
  | unread unreadable =>
    cases failed
    exact ⟨_, .none, .inl ⟨rfl, unreadable⟩⟩
  | refused _ refused =>
    cases failed
    exact ⟨_, .none, .inr ⟨_, refused⟩⟩
  | taken _ _ taken _ inductionHypothesis =>
    obtain ⟨middle, takes, ends⟩ := inductionHypothesis failed
    exact ⟨middle, .next taken takes, ends⟩

end Consequences

section Runs

variable {system : FileSystem} {extents : Tree ExtentKey ExtentRecord} {file : CatalogFile}
variable {kind : ForkKind} {shelf : Shelf} {fork : Fork} {hasher : Hasher} {ω : Type}

end Runs

section Sample

/-! A volume with a file whose two blocks are out of order, the second known from an overflow
record. -/

namespace FileSystem

end FileSystem

end Sample

end HfsPlus
