import HfsPlus.Proofs.Code
import HfsPlus.Proofs.Name.Codec
import HfsPlus.Proofs.Outcome
import HfsPlus.Proofs.Structure
import HfsPlus.Record.Attribute
import HfsPlus.Record.Catalog
import HfsPlus.Record.HotFile
import HfsPlus.Record.Overflow
import Mathlib.Algebra.Ring.Nat

/-!
# Stored leaf values

A leaf record of the catalog or of the attributes tree says at its start what kind of record it
is, and its kind says what follows: a structure of fixed size, a name behind its count, or data
behind their size. The records of the other two trees have one kind each. `Spells` lists the kinds
with the bytes that each may be stored in.

A value is read exactly from the bytes that start with one of its stored forms. It therefore lies
within these bytes, and what stands behind it makes no difference. Which bytes hold a value can be
told from the number of its kind, from how many bytes there are, and from the count or size.
-/

namespace HfsPlus

/-- How the leaf values of a tree are stored. -/
structure ValueFormat (Key Value : Type) where
  /-- The bytes that a value may be stored in under a key. -/
  Spells : Key → Bytes → Value → Prop
  /-- Which bytes start with a stored value. -/
  Whole : Bytes → Prop
  /-- What bytes are refused for that do not. -/
  causes : Bytes → List Error

namespace ValueFormat

variable {Key Value : Type}

/-- Values are read as they are stored. -/
structure ReadBy (format : ValueFormat Key Value) (schema : Schema Key Value) : Prop where
  /-- A value is read exactly from the bytes that start with a stored form of it. -/
  exact : ∀ key bytes value, schema.decodeValue key bytes = .ok value ↔
    ∃ stored, format.Spells key stored value ∧ stored <+: bytes
  /-- Which bytes these are can be told without reading them. -/
  accepts : ∀ key bytes, (∃ value, schema.decodeValue key bytes = .ok value) ↔ format.Whole bytes
  /-- What follows a value does not change it. -/
  stays : ∀ key bytes value, schema.decodeValue key bytes = .ok value →
    ∀ rest, schema.decodeValue key (bytes ++ rest) = .ok value
  /-- All other bytes are refused for one of a few causes. -/
  refuses : ∀ key bytes cause, schema.decodeValue key bytes = .error cause →
    cause ∈ format.causes bytes

/-- A format can be told by the bytes that each value is read from. -/
theorem ReadBy.of_exact {format : ValueFormat Key Value} {schema : Schema Key Value}
    (exact : ∀ key bytes value, schema.decodeValue key bytes = .ok value ↔
      ∃ stored, format.Spells key stored value ∧ stored <+: bytes)
    (whole : ∀ key bytes, (∃ value stored, format.Spells key stored value ∧ stored <+: bytes) ↔
      format.Whole bytes)
    (refuses : ∀ key bytes cause, schema.decodeValue key bytes = .error cause →
      cause ∈ format.causes bytes) :
    format.ReadBy schema where
  exact := exact
  accepts key bytes := by simp only [exact, whole]
  stays key bytes value read rest := by
    obtain ⟨stored, spelled, starts⟩ := (exact key bytes value).mp read
    refine (exact key _ value).mpr ⟨stored, spelled, starts.trans ?_⟩
    exact List.prefix_append bytes rest
  refuses := refuses

end ValueFormat

section Numbered

variable {α Tag : Type} [Stored α] [Word Tag] {tag : α → Tag} {number : Tag} {bytes : Bytes}
variable (first : ∀ value : α, Word.bytes (tag value) <+: Stored.encode value)
include first

/-- A structure that is read from bytes which start with a word has that word first. -/
theorem Stored.read_numbered (starts : Word.bytes number <+: bytes) {value : α} :
    Stored.read bytes = .ok value ↔ tag value = number ∧ Stored.encode value <+: bytes := by
  rw [Stored.read_eq_ok]
  constructor
  · intro stored
    exact ⟨Word.eq_of_prefix ((first value).trans stored) starts, stored⟩
  · exact And.right

/-- Bytes start with a structure that has a certain word first if they start with that word and
there are enough of them. -/
theorem Stored.numbered_iff :
    (∃ value : α, tag value = number ∧ Stored.encode value <+: bytes) ↔
      Word.bytes number <+: bytes ∧ Stored.size α ≤ bytes.length := by
  constructor
  · rintro ⟨value, rfl, stored⟩
    have room := stored.length_le
    rw [Stored.length_encode] at room
    exact ⟨(first value).trans stored, room⟩
  · rintro ⟨starts, room⟩
    obtain ⟨value, rest, read⟩ := Stored.decode?_isSome.mpr room
    have stored : Stored.encode value <+: bytes :=
      ⟨rest, Layout.encode_of_decode _ _ _ _ _ read⟩
    exact ⟨value, Word.eq_of_prefix ((first value).trans stored) starts, stored⟩

end Numbered

section Catalog

/-- A thread as it is stored under the number of its kind. Two bytes of it are not used. -/
def CatalogThread.stored (thread : CatalogThread) (number : Int16) (unused : UInt16) : Bytes :=
  Word.bytes number ++ Word.bytes unused ++ Word.bytes thread.parentId ++ thread.name.encode

/-- The stored forms of the records of a catalog. -/
inductive CatalogRecord.Spells : Bytes → CatalogRecord → Prop
  | folder (folder : CatalogFolder) : folder.recordType = 1 →
    Spells (Stored.encode folder) (.folder folder)
  | file (file : CatalogFile) : file.recordType = 2 →
    Spells (Stored.encode file) (.file file)
  | folderThread (thread : CatalogThread) (unused : UInt16) :
    thread.name.units.length ≤ Name.maxUnits →
    Spells (thread.stored 3 unused) (.folderThread thread)
  | fileThread (thread : CatalogThread) (unused : UInt16) :
    thread.name.units.length ≤ Name.maxUnits →
    Spells (thread.stored 4 unused) (.fileThread thread)

/-- Bytes that start with a record of a catalog. -/
inductive CatalogRecord.Whole (bytes : Bytes) : Prop
  | folder : Bytes.value (bytes.take 2) = 1 → 88 ≤ bytes.length → Whole bytes
  | file : Bytes.value (bytes.take 2) = 2 → 248 ≤ bytes.length → Whole bytes
  | thread : Bytes.value (bytes.take 2) = 3 ∨ Bytes.value (bytes.take 2) = 4 →
    8 ≤ bytes.length → Name.Whole (bytes.drop 8) → Whole bytes

/-- The format of the records of a catalog. -/
def catalogValues : ValueFormat CatalogKey CatalogRecord where
  Spells _ := CatalogRecord.Spells
  Whole := CatalogRecord.Whole
  causes bytes := .invalid (.fieldCut "catalog record" bytes.length 0) ::
    UnknownCode.toError ⟨Coded.field CatalogRecordType,
      (Word.ofBytes .bigEndian (bytes.take 2) : Int16).toInt⟩ ::
    .undecodable :: .invalid (.fieldCut "catalog thread" bytes.length 4) ::
    Name.causes (bytes.drop 8)

/-- A stored thread starts with its kind; its parent and its name stand behind the bytes that are
not used. -/
theorem CatalogThread.stored_starts {thread : CatalogThread} {number : Int16} {bytes : Bytes} :
    (∃ unused, thread.stored number unused <+: bytes) ↔
      Word.bytes number <+: bytes ∧ 4 ≤ bytes.length ∧
        Word.bytes thread.parentId <+: bytes.drop 4 ∧ thread.name.encode <+: bytes.drop 8 := by
  simp only [CatalogThread.stored, Bytes.append_prefix, List.length_append, Word.length_encode,
    Word.width_int16, Word.width_uint16, Word.width_uint32, Nat.reduceAdd]
  constructor
  · rintro ⟨unused, ⟨⟨numbered, skipped⟩, there⟩, behind⟩
    have numberRoom := numbered.length_le
    have room := Word.le_of_prefix_drop skipped
    rw [Word.length_encode, Word.width_int16] at numberRoom
    rw [Word.width_uint16] at room
    exact ⟨numbered, by omega, there, behind⟩
  · rintro ⟨numbered, four, there, behind⟩
    obtain ⟨unused, skipped⟩ := Word.exists_prefix_drop UInt16
      (show 2 + Word.width UInt16 ≤ bytes.length from four)
    exact ⟨unused, ⟨⟨numbered, skipped⟩, there⟩, behind⟩

/-- A thread is read from bytes that start with a number if it is stored there under that number
and its name has no more units than a name may have. -/
theorem CatalogThread.decode_numbered {thread : CatalogThread} {number : Int16} {bytes : Bytes}
    (starts : Word.bytes number <+: bytes) :
    CatalogThread.decode bytes = .ok thread ↔ thread.name.units.length ≤ Name.maxUnits ∧
      ∃ unused, thread.stored number unused <+: bytes := by
  rw [CatalogThread.stored_starts, and_iff_right starts]
  unfold CatalogThread.decode
  constructor
  · intro read
    obtain ⟨parentId, there, read⟩ := bind_eq_ok.mp read
    obtain ⟨⟨name, length⟩, named, read⟩ := bind_eq_ok.mp read
    obtain ⟨⟩ := read
    obtain ⟨four, there⟩ := Word.field_eq_ok.mp there
    obtain ⟨short, behind, -⟩ := Name.decode_eq_ok.mp named
    exact ⟨short, four, there, behind⟩
  · rintro ⟨short, four, there, behind⟩
    apply bind_eq_ok.mpr
    refine ⟨thread.parentId, Word.field_eq_ok.mpr ⟨four, there⟩, ?_⟩
    apply bind_eq_ok.mpr
    exact ⟨(thread.name, _), Name.decode_eq_ok.mpr ⟨short, behind, rfl⟩, rfl⟩

/-- Bytes start with a stored thread if its number, its parent and its name are there. -/
theorem CatalogThread.whole_iff {number : Int16} {bytes : Bytes} :
    (∃ (thread : CatalogThread) (unused : UInt16), thread.name.units.length ≤ Name.maxUnits ∧
        thread.stored number unused <+: bytes) ↔
      Word.bytes number <+: bytes ∧ 8 ≤ bytes.length ∧ Name.Whole (bytes.drop 8) := by
  constructor
  · rintro ⟨thread, unused, short, stored⟩
    obtain ⟨starts, -, there, behind⟩ := CatalogThread.stored_starts.mp ⟨unused, stored⟩
    have room := Word.le_of_prefix_drop there
    rw [Word.width_uint32] at room
    exact ⟨starts, by omega, Name.whole_iff.mpr ⟨thread.name, short, behind⟩⟩
  · rintro ⟨starts, eight, named⟩
    obtain ⟨parentId, there⟩ := Word.exists_prefix_drop UInt32
      (show 4 + Word.width UInt32 ≤ bytes.length from eight)
    obtain ⟨name, short, behind⟩ := Name.whole_iff.mp named
    have placed : ∃ unused, CatalogThread.stored ⟨parentId, name⟩ number unused <+: bytes :=
      CatalogThread.stored_starts.mpr ⟨starts, by omega, there, behind⟩
    obtain ⟨unused, stored⟩ := placed
    exact ⟨⟨parentId, name⟩, unused, short, stored⟩

/-- A thread is refused because it ends before its name, or for the name. -/
theorem CatalogThread.mem_causes {bytes : Bytes} {cause : Error}
    (refused : CatalogThread.decode bytes = .error cause) :
    cause = .invalid (.fieldCut "catalog thread" bytes.length 4) ∨
      cause ∈ Name.causes (bytes.drop 8) := by
  unfold CatalogThread.decode at refused
  rcases bind_eq_error.mp refused with cut | ⟨parentId, -, refused⟩
  · exact .inl (Word.field_eq_error cut)
  rcases bind_eq_error.mp refused with named | ⟨name, -, refused⟩
  · exact .inr (Name.mem_causes named)
  · cases refused

/-- The record of a folder starts with its kind. -/
theorem CatalogFolder.first (folder : CatalogFolder) :
    Word.bytes folder.recordType <+: Stored.encode folder := List.prefix_append _ _

/-- So does the record of a file. -/
theorem CatalogFile.first (file : CatalogFile) :
    Word.bytes file.recordType <+: Stored.encode file := List.prefix_append _ _

namespace CatalogRecord

/-- What a record is read as is settled by the number that it starts with. -/
theorem decode_eq_ok_numbered {bytes : Bytes} {record : CatalogRecord} :
    decode bytes = .ok record ↔ ∃ type : CatalogRecordType,
      Word.bytes (Int16.ofInt (Coded.code type)) <+: bytes ∧
        (match type with
          | .folder => folder <$> Stored.read bytes
          | .file => file <$> Stored.read bytes
          | .folderThread => folderThread <$> CatalogThread.decode bytes
          | .fileThread => fileThread <$> CatalogThread.decode bytes) = .ok record := by
  unfold decode
  constructor
  · intro read
    obtain ⟨number, there, read⟩ := bind_eq_ok.mp read
    obtain ⟨type, known, read⟩ := bind_eq_ok.mp read
    rw [mapError_eq_ok, Coded.ofCode_eq_ok] at known
    rw [← Int16.ofInt_toInt number, ← known] at there
    exact ⟨type, (Word.field_eq_ok.mp there).2, read⟩
  · rintro ⟨type, starts, read⟩
    apply bind_eq_ok.mpr
    refine ⟨_, Word.field_eq_ok.mpr ⟨Nat.zero_le _, starts⟩, ?_⟩
    apply bind_eq_ok.mpr
    refine ⟨type, ?_, read⟩
    cases type <;> rfl

/-- A record is read exactly from the bytes that start with a stored form of it. -/
theorem decode_eq_ok {bytes : Bytes} {record : CatalogRecord} :
    decode bytes = .ok record ↔ ∃ stored, Spells stored record ∧ stored <+: bytes := by
  rw [decode_eq_ok_numbered]
  constructor
  · rintro ⟨type, starts, read⟩
    cases type with
    | folder =>
      obtain ⟨folder, decoded, rfl⟩ := map_eq_ok.mp read
      obtain ⟨type, stored⟩ := (Stored.read_numbered CatalogFolder.first starts).mp decoded
      exact ⟨_, .folder folder type, stored⟩
    | file =>
      obtain ⟨file, decoded, rfl⟩ := map_eq_ok.mp read
      obtain ⟨type, stored⟩ := (Stored.read_numbered CatalogFile.first starts).mp decoded
      exact ⟨_, .file file type, stored⟩
    | folderThread =>
      obtain ⟨thread, decoded, rfl⟩ := map_eq_ok.mp read
      obtain ⟨short, unused, stored⟩ := (CatalogThread.decode_numbered starts).mp decoded
      exact ⟨_, .folderThread thread unused short, stored⟩
    | fileThread =>
      obtain ⟨thread, decoded, rfl⟩ := map_eq_ok.mp read
      obtain ⟨short, unused, stored⟩ := (CatalogThread.decode_numbered starts).mp decoded
      exact ⟨_, .fileThread thread unused short, stored⟩
  · rintro ⟨stored, spelled, starts⟩
    cases spelled with
    | folder folder type =>
      have numbered := folder.first.trans starts
      rw [type] at numbered
      exact ⟨.folder, numbered, map_eq_ok.mpr ⟨folder, Stored.read_eq_ok.mpr starts, rfl⟩⟩
    | file file type =>
      have numbered := file.first.trans starts
      rw [type] at numbered
      exact ⟨.file, numbered, map_eq_ok.mpr ⟨file, Stored.read_eq_ok.mpr starts, rfl⟩⟩
    | folderThread thread unused short =>
      have numbered := (CatalogThread.stored_starts.mp ⟨unused, starts⟩).1
      have decoded := (CatalogThread.decode_numbered numbered).mpr ⟨short, unused, starts⟩
      exact ⟨.folderThread, numbered, map_eq_ok.mpr ⟨thread, decoded, rfl⟩⟩
    | fileThread thread unused short =>
      have numbered := (CatalogThread.stored_starts.mp ⟨unused, starts⟩).1
      have decoded := (CatalogThread.decode_numbered numbered).mpr ⟨short, unused, starts⟩
      exact ⟨.fileThread, numbered, map_eq_ok.mpr ⟨thread, decoded, rfl⟩⟩

/-- Bytes start with a record if they are long enough for the kind that their number names. -/
theorem whole_iff {bytes : Bytes} :
    (∃ record stored, Spells stored record ∧ stored <+: bytes) ↔ Whole bytes := by
  constructor
  · rintro ⟨record, stored, spelled, starts⟩
    cases spelled with
    | folder folder type =>
      obtain ⟨numbered, room⟩ := (Stored.numbered_iff CatalogFolder.first).mp ⟨folder, type, starts⟩
      exact .folder (Word.prefix_iff.mp numbered).2 room
    | file file type =>
      obtain ⟨numbered, room⟩ := (Stored.numbered_iff CatalogFile.first).mp ⟨file, type, starts⟩
      exact .file (Word.prefix_iff.mp numbered).2 room
    | folderThread thread unused short =>
      obtain ⟨numbered, room, named⟩ := CatalogThread.whole_iff.mp ⟨thread, unused, short, starts⟩
      exact .thread (.inl (Word.prefix_iff.mp numbered).2) room named
    | fileThread thread unused short =>
      obtain ⟨numbered, room, named⟩ := CatalogThread.whole_iff.mp ⟨thread, unused, short, starts⟩
      exact .thread (.inr (Word.prefix_iff.mp numbered).2) room named
  · intro whole
    cases whole with
    | folder number room =>
      have numbered : Word.bytes (1 : Int16) <+: bytes :=
        Word.prefix_iff.mpr ⟨Nat.le_trans (by decide) room, number⟩
      obtain ⟨folder, type, starts⟩ := (Stored.numbered_iff CatalogFolder.first).mpr ⟨numbered, room⟩
      exact ⟨_, _, .folder folder type, starts⟩
    | file number room =>
      have numbered : Word.bytes (2 : Int16) <+: bytes :=
        Word.prefix_iff.mpr ⟨Nat.le_trans (by decide) room, number⟩
      obtain ⟨file, type, starts⟩ := (Stored.numbered_iff CatalogFile.first).mpr ⟨numbered, room⟩
      exact ⟨_, _, .file file type, starts⟩
    | thread number room named =>
      have two : 2 ≤ bytes.length := Nat.le_trans (by decide) room
      rcases number with number | number
      · have numbered : Word.bytes (3 : Int16) <+: bytes := Word.prefix_iff.mpr ⟨two, number⟩
        obtain ⟨thread, unused, short, starts⟩ :=
          CatalogThread.whole_iff.mpr ⟨numbered, room, named⟩
        exact ⟨_, _, .folderThread thread unused short, starts⟩
      · have numbered : Word.bytes (4 : Int16) <+: bytes := Word.prefix_iff.mpr ⟨two, number⟩
        obtain ⟨thread, unused, short, starts⟩ :=
          CatalogThread.whole_iff.mpr ⟨numbered, room, named⟩
        exact ⟨_, _, .fileThread thread unused short, starts⟩

/-- A record is refused because it ends too early, because its number stands for no kind, or for
the count of its name. -/
theorem mem_causes {bytes : Bytes} {cause : Error} (refused : decode bytes = .error cause) :
    cause ∈ catalogValues.causes bytes := by
  simp only [catalogValues, List.mem_cons]
  unfold decode at refused
  rcases bind_eq_error.mp refused with cut | ⟨number, there, refused⟩
  · exact .inl (Word.field_eq_error cut)
  rcases bind_eq_error.mp refused with unknown | ⟨type, -, refused⟩
  · obtain ⟨code, none, rfl⟩ := mapError_eq_error.mp unknown
    rw [Coded.ofCode_eq_error none, ← Word.ofBytes_take (Word.field_eq_ok.mp there).2]
    exact .inr (.inl rfl)
  · cases type with
    | folder => exact .inr (.inr (.inl (Stored.read_eq_error (map_eq_error.mp refused))))
    | file => exact .inr (.inr (.inl (Stored.read_eq_error (map_eq_error.mp refused))))
    | folderThread =>
      exact .inr (.inr (.inr (CatalogThread.mem_causes (map_eq_error.mp refused))))
    | fileThread =>
      exact .inr (.inr (.inr (CatalogThread.mem_causes (map_eq_error.mp refused))))

/-- A thread that is written is read back as a record of its kind, whatever follows it. -/
theorem decode_encode_thread {thread : CatalogThread}
    (short : thread.name.units.length ≤ Name.maxUnits) (rest : Bytes) :
    decode (thread.encode .folderThread ++ rest) = .ok (.folderThread thread) ∧
      decode (thread.encode .fileThread ++ rest) = .ok (.fileThread thread) :=
  ⟨decode_eq_ok.mpr ⟨_, .folderThread thread 0 short, List.prefix_append _ rest⟩,
    decode_eq_ok.mpr ⟨_, .fileThread thread 0 short, List.prefix_append _ rest⟩⟩

end CatalogRecord

/-- The catalog reads its records as they are stored. -/
theorem catalogValues_readBy (caseSensitive : Bool) :
    catalogValues.ReadBy (Catalog.schema caseSensitive) :=
  .of_exact (fun _ _ _ => CatalogRecord.decode_eq_ok) (fun _ _ => CatalogRecord.whole_iff)
    fun _ _ _ => CatalogRecord.mem_causes

end Catalog

section Attributes

namespace AttributeValue

/-- An attribute as it is stored in its record. Eight bytes of it are not used. -/
def stored (data : Bytes) (unused : UInt64) : Bytes :=
  Word.bytes (0x10 : UInt32) ++ Word.bytes unused ++ Word.bytes (UInt32.ofNat data.length) ++ data

/-- The stored forms of the records of the attributes tree. -/
inductive Spells : Bytes → AttributeValue → Prop
  | inline (data : Bytes) (unused : UInt64) : data.length < 2 ^ 32 →
    Spells (stored data unused) (.inline data)
  | fork (first : AttributeForkData) : first.recordType = 0x20 →
    Spells (Stored.encode first) (.fork first.fork)
  | extents (further : AttributeExtents) : further.recordType = 0x30 →
    Spells (Stored.encode further) (.extents further.extents)

/-- Bytes that start with a record of the attributes tree. -/
inductive Whole (bytes : Bytes) : Prop
  | inline : Bytes.value (bytes.take 4) = 0x10 → 16 ≤ bytes.length →
    16 + Bytes.value ((bytes.drop 12).take 4) ≤ bytes.length → Whole bytes
  | fork : Bytes.value (bytes.take 4) = 0x20 → 88 ≤ bytes.length → Whole bytes
  | extents : Bytes.value (bytes.take 4) = 0x30 → 72 ≤ bytes.length → Whole bytes

end AttributeValue

/-- The format of the records of the attributes tree. -/
def attributeValues : ValueFormat AttributeKey AttributeValue where
  Spells _ := AttributeValue.Spells
  Whole := AttributeValue.Whole
  causes bytes := [.invalid (.fieldCut "attribute record" bytes.length 0),
    UnknownCode.toError ⟨Coded.field AttributeRecordType, Bytes.value (bytes.take 4)⟩,
    .invalid (.fieldCut "inline attribute" bytes.length 12),
    .invalid (.inlineCut (Bytes.value ((bytes.drop 12).take 4)) bytes.length), .undecodable]

/-- The first record of an attribute with a fork of its own starts with its kind. -/
theorem AttributeForkData.first (record : AttributeForkData) :
    Word.bytes record.recordType <+: Stored.encode record := List.prefix_append _ _

/-- So does a further record of such an attribute. -/
theorem AttributeExtents.first (record : AttributeExtents) :
    Word.bytes record.recordType <+: Stored.encode record := List.prefix_append _ _

namespace AttributeValue

/-- Read an attribute that lies in its record. -/
def readInline (bytes : Bytes) : Except Error AttributeValue := do
  let size : UInt32 ← Word.field "inline attribute" bytes 12
  match bytes.slice? inlineStart size.toNat with
  | some data => return inline data
  | none => throw (.invalid (.inlineCut size.toNat bytes.length))

/-- What a record is read as is settled by the number that it starts with. -/
theorem decode_eq_ok_numbered {bytes : Bytes} {value : AttributeValue} :
    decode bytes = .ok value ↔ ∃ type : AttributeRecordType,
      Word.bytes (UInt32.ofNat (Coded.code type).toNat) <+: bytes ∧
        (match type with
          | .inlineData => readInline bytes
          | .forkData => (fork ∘ AttributeForkData.fork) <$> Stored.read bytes
          | .extents => (extents ∘ AttributeExtents.extents) <$> Stored.read bytes) =
            .ok value := by
  unfold decode
  constructor
  · intro read
    obtain ⟨number, there, read⟩ := bind_eq_ok.mp read
    obtain ⟨type, known, read⟩ := bind_eq_ok.mp read
    rw [mapError_eq_ok, Coded.ofCode_eq_ok] at known
    refine ⟨type, ?_, ?_⟩
    · rw [known, Int.toNat_natCast, UInt32.ofNat_toNat]
      exact (Word.field_eq_ok.mp there).2
    · cases type <;> exact read
  · rintro ⟨type, starts, read⟩
    apply bind_eq_ok.mpr
    refine ⟨_, Word.field_eq_ok.mpr ⟨Nat.zero_le _, starts⟩, ?_⟩
    apply bind_eq_ok.mpr
    refine ⟨type, ?_, ?_⟩
    · cases type <;> rfl
    · cases type <;> exact read

/-- A stored attribute starts with its kind; its size and its data stand behind the bytes that are
not used. -/
theorem stored_starts {data bytes : Bytes} :
    (∃ unused, stored data unused <+: bytes) ↔
      Word.bytes (0x10 : UInt32) <+: bytes ∧
        12 ≤ bytes.length ∧ Word.bytes (UInt32.ofNat data.length) <+: bytes.drop 12 ∧
        data <+: bytes.drop 16 := by
  simp only [stored, Bytes.append_prefix, List.length_append, Word.length_encode,
    Word.width_uint32, Word.width_uint64, Nat.reduceAdd]
  constructor
  · rintro ⟨unused, ⟨⟨numbered, skipped⟩, sized⟩, behind⟩
    have numberRoom := numbered.length_le
    have room := Word.le_of_prefix_drop skipped
    rw [Word.length_encode, Word.width_uint32] at numberRoom
    rw [Word.width_uint64] at room
    exact ⟨numbered, by omega, sized, behind⟩
  · rintro ⟨numbered, twelve, sized, behind⟩
    obtain ⟨unused, skipped⟩ := Word.exists_prefix_drop UInt64
      (show 4 + Word.width UInt64 ≤ bytes.length from twelve)
    exact ⟨unused, ⟨⟨numbered, skipped⟩, sized⟩, behind⟩

/-- The size of an attribute that is short enough is its size as a word too. -/
theorem toNat_length {data : Bytes} (short : data.length < 2 ^ 32) :
    (UInt32.ofNat data.length).toNat = data.length := UInt32.toNat_ofNat_of_lt' short

/-- An attribute is read from bytes that start with the number of its kind if it is stored there. -/
theorem readInline_eq_ok {bytes : Bytes} {value : AttributeValue}
    (starts : Word.bytes (0x10 : UInt32) <+: bytes) :
    readInline bytes = .ok value ↔ ∃ data, value = .inline data ∧ data.length < 2 ^ 32 ∧
      ∃ unused, stored data unused <+: bytes := by
  simp only [stored_starts, and_iff_right starts]
  unfold readInline
  constructor
  · intro read
    obtain ⟨size, sized, read⟩ := bind_eq_ok.mp read
    obtain ⟨twelve, sized⟩ := Word.field_eq_ok.mp sized
    split at read
    next data cut =>
      obtain ⟨⟩ := read
      obtain ⟨-, long, behind⟩ := Bytes.slice?_eq_some.mp cut
      refine ⟨data, rfl, ?_, twelve, ?_, behind⟩
      · rw [long]
        exact size.toNat_lt
      · rwa [long, UInt32.ofNat_toNat]
    next => exact (throw_ne_ok _ _ read).elim
  · rintro ⟨data, rfl, short, twelve, sized, behind⟩
    have room := Word.le_of_prefix_drop sized
    rw [Word.width_uint32] at room
    have cut : bytes.slice? inlineStart (UInt32.ofNat data.length).toNat = some data := by
      refine Bytes.slice?_eq_some.mpr ⟨?_, (toNat_length short).symm, behind⟩
      show 16 ≤ bytes.length
      omega
    apply bind_eq_ok.mpr
    refine ⟨_, Word.field_eq_ok.mpr ⟨twelve, sized⟩, ?_⟩
    rw [cut]
    rfl

/-- A record is read exactly from the bytes that start with a stored form of it. -/
theorem decode_eq_ok {bytes : Bytes} {value : AttributeValue} :
    decode bytes = .ok value ↔ ∃ stored, Spells stored value ∧ stored <+: bytes := by
  rw [decode_eq_ok_numbered]
  constructor
  · rintro ⟨type, starts, read⟩
    cases type with
    | inlineData =>
      obtain ⟨data, rfl, short, unused, within⟩ := (readInline_eq_ok starts).mp read
      exact ⟨_, .inline data unused short, within⟩
    | forkData =>
      obtain ⟨first, decoded, rfl⟩ := map_eq_ok.mp read
      obtain ⟨type, within⟩ := (Stored.read_numbered AttributeForkData.first starts).mp decoded
      exact ⟨_, .fork first type, within⟩
    | extents =>
      obtain ⟨further, decoded, rfl⟩ := map_eq_ok.mp read
      obtain ⟨type, within⟩ := (Stored.read_numbered AttributeExtents.first starts).mp decoded
      exact ⟨_, .extents further type, within⟩
  · rintro ⟨stored, spelled, within⟩
    cases spelled with
    | inline data unused short =>
      have starts := (stored_starts.mp ⟨unused, within⟩).1
      exact ⟨.inlineData, starts, (readInline_eq_ok starts).mpr ⟨data, rfl, short, unused, within⟩⟩
    | fork first type =>
      have starts := first.first.trans within
      rw [type] at starts
      exact ⟨.forkData, starts, map_eq_ok.mpr ⟨first, Stored.read_eq_ok.mpr within, rfl⟩⟩
    | extents further type =>
      have starts := further.first.trans within
      rw [type] at starts
      exact ⟨.extents, starts, map_eq_ok.mpr ⟨further, Stored.read_eq_ok.mpr within, rfl⟩⟩

/-- Bytes start with an attribute if its number is there and as many bytes as its size says. -/
theorem inline_whole_iff {bytes : Bytes} :
    (∃ data unused, data.length < 2 ^ 32 ∧ stored data unused <+: bytes) ↔
      Word.bytes (0x10 : UInt32) <+: bytes ∧ 16 ≤ bytes.length ∧
        16 + Bytes.value ((bytes.drop 12).take 4) ≤ bytes.length := by
  constructor
  · rintro ⟨data, unused, short, within⟩
    obtain ⟨starts, twelve, sized, behind⟩ := stored_starts.mp ⟨unused, within⟩
    have room := Word.le_of_prefix_drop sized
    have long := behind.length_le
    rw [Word.width_uint32] at room
    rw [List.length_drop] at long
    have told : Bytes.value ((bytes.drop 12).take 4) = (UInt32.ofNat data.length).toNat :=
      (Word.prefix_iff.mp sized).2
    rw [told, toNat_length short]
    exact ⟨starts, by omega, by omega⟩
  · rintro ⟨starts, sixteen, long⟩
    obtain ⟨size, sized⟩ := Word.exists_prefix_drop UInt32
      (show 12 + Word.width UInt32 ≤ bytes.length from sixteen)
    have told : Bytes.value ((bytes.drop 12).take 4) = size.toNat := (Word.prefix_iff.mp sized).2
    rw [told] at long
    have counted : ((bytes.drop 16).take size.toNat).length = size.toNat := by
      rw [List.length_take, List.length_drop]
      omega
    have placed : ∃ unused, stored ((bytes.drop 16).take size.toNat) unused <+: bytes := by
      refine stored_starts.mpr ⟨starts, by omega, ?_, List.take_prefix _ _⟩
      rwa [counted, UInt32.ofNat_toNat]
    obtain ⟨unused, within⟩ := placed
    refine ⟨_, unused, ?_, within⟩
    rw [counted]
    exact size.toNat_lt

/-- Bytes start with a record if they are long enough for the kind that their number names. -/
theorem whole_iff {bytes : Bytes} :
    (∃ value stored, Spells stored value ∧ stored <+: bytes) ↔ Whole bytes := by
  constructor
  · rintro ⟨value, stored, spelled, within⟩
    cases spelled with
    | inline data unused short =>
      obtain ⟨numbered, room, long⟩ := inline_whole_iff.mp ⟨data, unused, short, within⟩
      exact .inline (Word.prefix_iff.mp numbered).2 room long
    | fork first type =>
      obtain ⟨numbered, room⟩ :=
        (Stored.numbered_iff AttributeForkData.first).mp ⟨first, type, within⟩
      exact .fork (Word.prefix_iff.mp numbered).2 room
    | extents further type =>
      obtain ⟨numbered, room⟩ :=
        (Stored.numbered_iff AttributeExtents.first).mp ⟨further, type, within⟩
      exact .extents (Word.prefix_iff.mp numbered).2 room
  · intro whole
    cases whole with
    | inline number room long =>
      have numbered : Word.bytes (0x10 : UInt32) <+: bytes :=
        Word.prefix_iff.mpr ⟨Nat.le_trans (by decide) room, number⟩
      obtain ⟨data, unused, short, within⟩ := inline_whole_iff.mpr ⟨numbered, room, long⟩
      exact ⟨_, _, .inline data unused short, within⟩
    | fork number room =>
      have numbered : Word.bytes (0x20 : UInt32) <+: bytes :=
        Word.prefix_iff.mpr ⟨Nat.le_trans (by decide) room, number⟩
      obtain ⟨first, type, within⟩ :=
        (Stored.numbered_iff AttributeForkData.first).mpr ⟨numbered, room⟩
      exact ⟨_, _, .fork first type, within⟩
    | extents number room =>
      have numbered : Word.bytes (0x30 : UInt32) <+: bytes :=
        Word.prefix_iff.mpr ⟨Nat.le_trans (by decide) room, number⟩
      obtain ⟨further, type, within⟩ :=
        (Stored.numbered_iff AttributeExtents.first).mpr ⟨numbered, room⟩
      exact ⟨_, _, .extents further type, within⟩

/-- An attribute is refused because its size is not there, or because its data is not. -/
theorem readInline_eq_error {bytes : Bytes} {cause : Error}
    (refused : readInline bytes = .error cause) :
    cause = .invalid (.fieldCut "inline attribute" bytes.length 12) ∨
      cause = .invalid (.inlineCut (Bytes.value ((bytes.drop 12).take 4)) bytes.length) := by
  unfold readInline at refused
  rcases bind_eq_error.mp refused with cut | ⟨size, sized, refused⟩
  · exact .inl (Word.field_eq_error cut)
  have told : Bytes.value ((bytes.drop 12).take 4) = size.toNat :=
    (Word.prefix_iff.mp (Word.field_eq_ok.mp sized).2).2
  split at refused
  next => cases refused
  next =>
    obtain ⟨⟩ := refused
    rw [told]
    exact .inr rfl

/-- A record is refused because it ends too early or because its number stands for no kind. -/
theorem mem_causes {bytes : Bytes} {cause : Error} (refused : decode bytes = .error cause) :
    cause ∈ attributeValues.causes bytes := by
  simp only [attributeValues, List.mem_cons]
  unfold decode at refused
  rcases bind_eq_error.mp refused with cut | ⟨number, there, refused⟩
  · exact .inl (Word.field_eq_error cut)
  rcases bind_eq_error.mp refused with unknown | ⟨type, -, refused⟩
  · have told : Bytes.value (bytes.take 4) = number.toNat :=
      (Word.prefix_iff.mp (Word.field_eq_ok.mp there).2).2
    obtain ⟨code, none, rfl⟩ := mapError_eq_error.mp unknown
    rw [Coded.ofCode_eq_error none, told]
    exact .inr (.inl rfl)
  · cases type with
    | inlineData =>
      rcases readInline_eq_error refused with rfl | rfl
      · exact .inr (.inr (.inl rfl))
      · exact .inr (.inr (.inr (.inl rfl)))
    | forkData =>
      have undecodable := Stored.read_eq_error (map_eq_error.mp refused)
      exact .inr (.inr (.inr (.inr (.inl undecodable))))
    | extents =>
      have undecodable := Stored.read_eq_error (map_eq_error.mp refused)
      exact .inr (.inr (.inr (.inr (.inl undecodable))))

/-- An attribute that is written is read back, whatever follows it. -/
theorem decode_encodeInline {data : Bytes} (short : data.length < 2 ^ 32) (rest : Bytes) :
    decode (encodeInline data ++ rest) = .ok (.inline data) :=
  decode_eq_ok.mpr ⟨_, .inline data 0 short, List.prefix_append _ rest⟩

end AttributeValue

/-- The attributes tree reads its records as they are stored. -/
theorem attributeValues_readBy : attributeValues.ReadBy attributeSchema :=
  .of_exact (fun _ _ _ => AttributeValue.decode_eq_ok) (fun _ _ => AttributeValue.whole_iff)
    fun _ _ _ => AttributeValue.mem_causes

end Attributes

/-- The format of the records of the overflow tree: eight runs. -/
def overflowValues : ValueFormat ExtentKey ExtentRecord where
  Spells _ stored record := stored = Stored.encode record
  Whole bytes := 64 ≤ bytes.length
  causes _ := [.undecodable]

/-- The overflow tree reads its records as they are stored. -/
theorem overflowValues_readBy : overflowValues.ReadBy overflowSchema := by
  apply ValueFormat.ReadBy.of_exact
  case exact =>
    intro key bytes record
    apply Stored.read_eq_ok.trans
    simp [overflowValues]
  case whole =>
    intro key bytes
    refine Iff.trans ?_ (Stored.decode?_isSome (α := ExtentRecord))
    constructor
    · rintro ⟨record, stored, rfl, rest, rfl⟩
      exact ⟨record, rest, Layout.decode_encode _ _ _ _⟩
    · rintro ⟨record, rest, read⟩
      exact ⟨record, _, rfl, rest, Layout.encode_of_decode _ _ _ _ _ read⟩
  case refuses =>
    intro key bytes cause refused
    rw [Stored.read_eq_error refused]
    exact List.mem_singleton_self _

namespace HotFileRecord

/-- What a number stands for depends on the key it stands under. -/
def under (key : HotFileKey) (value : UInt32) : HotFileRecord :=
  if key.isThread then temperature value else tag value

end HotFileRecord

/-- The format of the records of the hot files tree: a number each. -/
def hotFileValues : ValueFormat HotFileKey HotFileRecord where
  Spells key stored record := ∃ value : UInt32, stored = Word.bytes value ∧
    record = HotFileRecord.under key value
  Whole bytes := 4 ≤ bytes.length
  causes bytes := [.invalid (.fieldCut "hot files record" bytes.length 0)]

/-- The hot files tree reads its records as they are stored. -/
theorem hotFileValues_readBy : hotFileValues.ReadBy hotFileSchema := by
  apply ValueFormat.ReadBy.of_exact
  case exact =>
    intro key bytes record
    show HotFileRecord.decode key bytes = .ok record ↔ _
    unfold HotFileRecord.decode
    constructor
    · intro read
      obtain ⟨value, there, read⟩ := bind_eq_ok.mp read
      obtain ⟨⟩ := read
      exact ⟨_, ⟨value, rfl, rfl⟩, (Word.field_eq_ok.mp there).2⟩
    · rintro ⟨stored, ⟨value, rfl, rfl⟩, starts⟩
      apply bind_eq_ok.mpr
      exact ⟨value, Word.field_eq_ok.mpr ⟨Nat.zero_le _, starts⟩, rfl⟩
  case whole =>
    intro key bytes
    constructor
    · rintro ⟨record, stored, ⟨value, rfl, rfl⟩, starts⟩
      exact (Word.prefix_iff.mp starts).1
    · intro room
      have inside : 0 + Word.width UInt32 ≤ bytes.length := room
      obtain ⟨value, starts⟩ := Word.exists_prefix_drop UInt32 inside
      exact ⟨_, _, ⟨value, rfl, rfl⟩, starts⟩
  case refuses =>
    intro key bytes cause refused
    have refused : HotFileRecord.decode key bytes = .error cause := refused
    rcases bind_eq_error.mp refused with cut | ⟨value, -, refused⟩
    · rw [Word.field_eq_error cut]
      exact List.mem_singleton_self _
    · cases refused

/-- **The values of all four trees are read exactly from their stored forms.** Which bytes hold one
is told by their number and by the kind, the count or the size that is stored there; what follows a
value does not change it; and all other bytes are refused for what they lack. A thread with a name
of no more units than a name may have, and an attribute whose size a word can hold, are read back
from the form they are written in, whatever follows it. -/
theorem values_read_back :
    ((∀ caseSensitive, catalogValues.ReadBy (Catalog.schema caseSensitive)) ∧
      overflowValues.ReadBy overflowSchema ∧ attributeValues.ReadBy attributeSchema ∧
      hotFileValues.ReadBy hotFileSchema) ∧
    (∀ (thread : CatalogThread) (rest : Bytes), thread.name.units.length ≤ Name.maxUnits →
      CatalogRecord.decode (thread.encode .folderThread ++ rest) = .ok (.folderThread thread) ∧
        CatalogRecord.decode (thread.encode .fileThread ++ rest) = .ok (.fileThread thread)) ∧
    ∀ data rest : Bytes, data.length < 2 ^ 32 →
      AttributeValue.decode (AttributeValue.encodeInline data ++ rest) = .ok (.inline data) := by
  refine ⟨⟨catalogValues_readBy, overflowValues_readBy, attributeValues_readBy,
    hotFileValues_readBy⟩, ?_, ?_⟩
  · intro thread rest short
    exact CatalogRecord.decode_encode_thread short rest
  · intro data rest short
    exact AttributeValue.decode_encodeInline short rest

/-- The thread of a folder named by one unit, and an attribute of three bytes. -/
theorem values_read_back_sample :
    (CatalogThread.mk 2 ⟨[65]⟩).name.units.length ≤ Name.maxUnits ∧
      CatalogRecord.decode [0, 3, 0, 0, 0, 0, 0, 2, 0, 1, 0, 65, 9] =
        .ok (.folderThread ⟨2, ⟨[65]⟩⟩) ∧
    ([7, 8, 9] : Bytes).length < 2 ^ 32 ∧
      AttributeValue.decode [0, 0, 0, 16, 0, 0, 0, 0, 0, 0, 0, 0, 0, 0, 0, 3, 7, 8, 9, 255] =
        .ok (.inline [7, 8, 9]) :=
  ⟨by decide, (values_read_back.2.1 ⟨2, ⟨[65]⟩⟩ [9] (by decide)).1, by decide,
    values_read_back.2.2 [7, 8, 9] [255] (by decide)⟩

end HfsPlus
