import HfsPlus.Proofs.Layout
import HfsPlus.Structure.Attribute
import HfsPlus.Structure.Catalog
import HfsPlus.Structure.HotFiles
import HfsPlus.Structure.Node
import HfsPlus.Structure.Volume

/-!
# Fixed structures

The bytes of a structure are its words one behind the other, most significant byte first, with
nothing between them. So the widths of its words make up its size, it can be read as soon as that
many bytes are there, and reading and writing undo each other. What holds of every layout holds of
each structure on a volume with the size that it is declared to have.
-/

namespace HfsPlus

/-- The words of a value in the order of its fields, each with its width. -/
def Layout.words : {α : Type} → Layout α → α → List (Nat × Nat)
  | α, word, value => [(Word.width α, Word.toNat value)]
  | _, array _ item, values => values.toList.flatMap item.words
  | _, done, () => []
  | _, field _ first rest, (head, tail) => first.words head ++ rest.words tail
  | _, record _ fields _ parts .., whole => fields.words (parts whole)

/-- A value is written word by word. -/
theorem Layout.encode_eq_words {α : Type} (layout : Layout α) (value : α) :
    layout.encode .bigEndian value =
      (layout.words value).flatMap fun word => Bytes.digits word.1 word.2 := by
  induction layout with
  | word => simp [encode, words, Word.encode, Bytes.ordered]
  | array count item inductionHypothesis =>
    rw [encode, words, List.flatMap_assoc]
    exact congrArg (value.toList.flatMap ·) (funext inductionHypothesis)
  | done => rfl
  | field name first rest headHypothesis tailHypothesis =>
    rw [encode, words, List.flatMap_append, headHypothesis, tailHypothesis]
  | record name fields make parts make_parts parts_make inductionHypothesis =>
    exact inductionHypothesis (parts value)

namespace Stored

/-- A structure takes `size` bytes, which are its words one behind the other, and is read from
them and written to them without any loss. -/
structure Exact (α : Type) [Stored α] (size : Nat) : Prop where
  /-- It can be read from the front of bytes that are no fewer. -/
  readable : ∀ bytes, (∃ (value : α) (rest : Bytes), decode? bytes = some (value, rest)) ↔
    size ≤ bytes.length
  /-- Reading it takes so many bytes off the front, and writing it gives these again. -/
  written : ∀ bytes (value : α) rest, decode? bytes = some (value, rest) →
    encode value = bytes.take size ∧ rest = bytes.drop size
  /-- Whatever follows it, a value that was written is read back. -/
  back : ∀ (value : α) rest, decode? (encode value ++ rest) = some (value, rest)
  length : ∀ value : α, (encode value).length = size
  spelled : ∀ value : α, encode value =
    (layout.words value).flatMap fun word => Bytes.digits word.1 word.2
  /-- It can be read from bytes that must be all of it if there are neither fewer nor more. -/
  whole : ∀ bytes, (∃ value : α, decodeWhole? bytes = some value) ↔ bytes.length = size
  /-- What is read from these is the value that is written as them. -/
  wholly : ∀ bytes (value : α), decodeWhole? bytes = some value ↔ encode value = bytes

variable {α : Type} [Stored α]

/-- A structure is written in as many bytes as its size says. -/
theorem length_encode (value : α) : (encode value).length = size α :=
  Layout.length_encode .bigEndian layout value

/-- What can be read as the whole of some bytes is what is written as them. -/
theorem decodeWhole?_eq_some {bytes : Bytes} {value : α} :
    decodeWhole? bytes = some value ↔ encode value = bytes := by
  unfold decodeWhole?
  constructor
  · intro read
    split at read
    next found decoded =>
      obtain ⟨⟩ := read
      have written := Layout.encode_of_decode _ _ _ _ _ decoded
      rwa [List.append_nil] at written
    next => cases read
  · rintro rfl
    have decoded : decode? (encode value) = some (value, []) := by
      rw [← List.append_nil (encode value)]
      exact Layout.decode_encode .bigEndian layout value []
    rw [decoded]

/-- A structure is read from as many bytes as its layout takes. -/
theorem decode?_isSome {bytes : Bytes} :
    (∃ (value : α) (rest : Bytes), decode? bytes = some (value, rest)) ↔
      size α ≤ bytes.length := by
  constructor
  · rintro ⟨value, rest, read⟩
    rw [← Layout.encode_of_decode _ _ _ _ _ read, List.length_append, Layout.length_encode]
    exact Nat.le_add_right _ _
  · intro enough
    obtain ⟨value, rest, read, -⟩ := Layout.decode_of_le .bigEndian (layout (α := α)) bytes enough
    exact ⟨value, rest, read⟩

/-- A structure is stored exactly in as many bytes as its layout takes: where as many are read as
there are, none are left. -/
theorem Exact.of_size {count : Nat} (sized : size α = count) : Exact α count where
  readable bytes := by
    rw [← sized]
    exact decode?_isSome
  written bytes value rest read := by
    rw [← sized, ← Layout.encode_of_decode _ _ _ _ _ read]
    exact ⟨(List.take_left' (length_encode value)).symm,
      (List.drop_left' (length_encode value)).symm⟩
  back value rest := Layout.decode_encode .bigEndian layout value rest
  length value := (length_encode value).trans sized
  spelled := Layout.encode_eq_words layout
  whole bytes := by
    simp only [decodeWhole?_eq_some]
    constructor
    · rintro ⟨value, rfl⟩
      exact (length_encode value).trans sized
    · intro enough
      obtain ⟨value, rest, read⟩ := decode?_isSome.mpr (Nat.le_of_eq (sized.trans enough.symm))
      have written := Layout.encode_of_decode _ _ _ _ _ read
      have left := congrArg List.length written
      rw [List.length_append, Layout.length_encode, enough, ← sized, size, Nat.add_eq_left,
        List.length_eq_zero_iff] at left
      rw [left, List.append_nil] at written
      exact ⟨value, written⟩
  wholly bytes value := decodeWhole?_eq_some

/-- **The structures of a volume are stored exactly**, each in the bytes it is declared to take.
It is read from bytes that are no fewer, and takes these and no more; it is written as what it was
read from, and read as what was written; and from bytes that must be all of it, it is read if there
are just as many. -/
theorem structures_exact :
    (Exact ExtentDescriptor 8 ∧ Exact ClassicExtent 4 ∧ Exact ForkData 80) ∧
      (Exact VolumeHeader 512 ∧ Exact MasterDirectoryBlock 162 ∧ Exact JournalInfoBlock 180) ∧
      (Exact NodeDescriptor 14 ∧ Exact TreeHeader 106) ∧
      (Exact BsdInfo 16 ∧ Exact Point 4 ∧ Exact Rect 8 ∧ Exact FileInfo 16 ∧
        Exact ExtendedFileInfo 16 ∧ Exact FolderInfo 16 ∧ Exact ExtendedFolderInfo 16) ∧
      (Exact CatalogFolder 88 ∧ Exact CatalogFile 248) ∧
      (Exact HotFilesInfo 64 ∧ Exact AttributeForkData 88 ∧ Exact AttributeExtents 72) := by
  refine ⟨⟨?_, ?_, ?_⟩, ⟨?_, ?_, ?_⟩, ⟨?_, ?_⟩, ⟨?_, ?_, ?_, ?_, ?_, ?_, ?_⟩, ⟨?_, ?_⟩, ?_, ?_, ?_⟩
  all_goals exact .of_size rfl

/-- A run of blocks takes eight bytes off the front. -/
example : (decode? [0, 0, 0, 7, 0, 0, 1, 0, 9] : Option (ExtentDescriptor × Bytes)) =
    some (⟨7, 256⟩, [9]) := rfl

end Stored

end HfsPlus
