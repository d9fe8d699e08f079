import HfsPlus.Proofs.Code
import HfsPlus.Proofs.Name.Codec
import HfsPlus.Proofs.Outcome
import HfsPlus.Record.Attribute
import HfsPlus.Record.Catalog
import HfsPlus.Record.HotFile
import HfsPlus.Record.Overflow

/-!
# Stored keys

Each of the four trees has its own order of fields in its keys, with padding in three of them and
a name at the end of two. All four are read back from what was written, whatever follows it, and
what is read from some bytes is written as these bytes again, with the padding cleared.

Which bytes hold a key can be told from a few of them: how many there are, the byte of the fork,
and the count in front of the name.
-/

namespace HfsPlus

/-- Some bytes with zeros in the places of padding. -/
def Bytes.clear (padding : List Nat) (bytes : Bytes) : Bytes :=
  padding.foldl (fun cleared place => cleared.set place 0) bytes

/-- What lies behind all padding stays as it is. -/
theorem Bytes.drop_clear {padding : List Nat} {count : Nat}
    (before : ∀ place ∈ padding, place < count) (bytes : Bytes) :
    (bytes.clear padding).drop count = bytes.drop count := by
  unfold Bytes.clear
  induction padding generalizing bytes with
  | nil => rfl
  | cons place later inductionHypothesis =>
    have here : place < count := before place List.mem_cons_self
    have behind := inductionHypothesis fun other member =>
      before other (List.mem_cons_of_mem _ member)
    rw [List.foldl_cons, behind, List.drop_set_of_lt here]

/-- How the keys of a tree are written. -/
structure KeyFormat (Key : Type) where
  encode : Key → Bytes
  /-- Which keys have a stored form that can be read. -/
  Storable : Key → Prop
  /-- Which bytes start with a stored key. -/
  Whole : Bytes → Prop
  /-- The places of padding. -/
  padding : List Nat
  /-- How many bytes the fields take that every key has. -/
  front : Nat
  /-- What bytes of a length are refused for if they end within these. -/
  cut : Nat → List FormatFault

namespace KeyFormat

variable {Key Value : Type}

/-- Keys are read as they are written. -/
structure ReadBy (format : KeyFormat Key) (schema : Schema Key Value) : Prop where
  /-- A key that was written is read back, whatever follows it. -/
  back : ∀ key, format.Storable key → ∀ rest,
    schema.decodeKey (format.encode key ++ rest) = .ok key
  /-- A key is read exactly from the bytes that start with one. -/
  accepts : ∀ bytes, (∃ key, schema.decodeKey bytes = .ok key) ↔ format.Whole bytes
  /-- What was read is written as the bytes that it was read from. -/
  stored : ∀ bytes key, schema.decodeKey bytes = .ok key →
    format.Storable key ∧ format.encode key <+: bytes.clear format.padding
  /-- Bytes that end within the front are refused for that. What comes behind the front is thus
  only cut out of bytes that reach there, and no place behind their end is looked at. -/
  stops : ∀ bytes, bytes.length < format.front →
    ∃ fault ∈ format.cut bytes.length, schema.decodeKey bytes = .error (.invalid fault)

/-- A format can be told by the bytes that each key is read from. -/
theorem ReadBy.of_exact {format : KeyFormat Key} {schema : Schema Key Value}
    (exact : ∀ bytes key, schema.decodeKey bytes = .ok key ↔
      format.Storable key ∧ format.encode key <+: bytes.clear format.padding)
    (cleared : ∀ key rest,
      format.encode key <+: Bytes.clear format.padding (format.encode key ++ rest))
    (whole : ∀ bytes, format.Whole bytes ↔
      ∃ key, format.Storable key ∧ format.encode key <+: bytes.clear format.padding)
    (stops : ∀ bytes, bytes.length < format.front →
      ∃ fault ∈ format.cut bytes.length, schema.decodeKey bytes = .error (.invalid fault)) :
    format.ReadBy schema where
  back key storable rest := (exact _ _).mpr ⟨storable, cleared key rest⟩
  accepts bytes := by simp only [exact, whole]
  stored bytes key := (exact bytes key).mp
  stops := stops

end KeyFormat

section Forks

/-- The byte of a fork stands for that fork and no other. -/
theorem ForkKind.ofByte_eq_ok {byte : UInt8} {kind : ForkKind} :
    ofByte byte = .ok kind ↔ kind.byte = byte := by
  unfold ofByte
  rw [mapError_eq_ok, Coded.ofCode_eq_ok, ← UInt8.toNat_inj]
  cases kind <;> exact Int.ofNat_inj

/-- Two bytes stand for forks. -/
theorem ForkKind.byte_iff {byte : UInt8} :
    (∃ kind : ForkKind, kind.byte = byte) ↔ byte = 0x00 ∨ byte = 0xFF := by
  constructor
  · rintro ⟨kind, rfl⟩
    cases kind with
    | data => exact .inl rfl
    | resource => exact .inr rfl
  · rintro (rfl | rfl)
    · exact ⟨.data, rfl⟩
    · exact ⟨.resource, rfl⟩

variable {Key Value : Type} (subject : String) (cut : Nat → FormatFault)
variable (make : ForkKind → UInt32 → UInt32 → Key)

/-- The fields of a key that is about a fork. -/
def forkFields (kind : ForkKind) (first second : UInt32) : Bytes :=
  [kind.byte, 0] ++ Word.bytes first ++ Word.bytes second

/-- Read a key that is about a fork. -/
def readForkFields (bytes : Bytes) : Except Error Key := do
  if bytes.length < 10 then throw (.invalid (cut bytes.length))
  let kind ← ForkKind.ofByte (← Word.field subject bytes 0)
  let first ← Word.field subject bytes 2
  let second ← Word.field subject bytes 6
  return make kind first second

/-- Bytes start with the fields of a key, but for the padding, if the byte of the fork and the two
words behind the padding are there. -/
theorem forkFields_starts {kind : ForkKind} {first second : UInt32} {bytes : Bytes} :
    forkFields kind first second <+: bytes.clear [1] ↔
      (2 ≤ bytes.length ∧ bytes.head? = some kind.byte) ∧
        Word.bytes first <+: bytes.drop 2 ∧ Word.bytes second <+: bytes.drop 6 := by
  have front : [kind.byte, 0] <+: bytes.clear [1] ↔
      2 ≤ bytes.length ∧ bytes.head? = some kind.byte := by
    match bytes with
    | [] => simp [Bytes.clear]
    | [byte] => simp [Bytes.clear]
    | byte :: padding :: rest => simp [Bytes.clear, eq_comm]
  rw [forkFields, Bytes.append_prefix, Bytes.append_prefix, front, and_assoc]
  simp only [List.length_append, Word.length_encode, Word.width_uint32, List.length_cons,
    List.length_nil, Nat.zero_add, Nat.reduceAdd]
  rw [Bytes.drop_clear (by decide), Bytes.drop_clear (by decide)]

/-- A key that is about a fork is read from the bytes that start with its fields, whatever the
padding is. -/
theorem readForkFields_eq_ok {bytes : Bytes} {key : Key} :
    readForkFields subject cut make bytes = .ok key ↔ ∃ kind first second,
      forkFields kind first second <+: bytes.clear [1] ∧ key = make kind first second := by
  unfold readForkFields
  simp only [forkFields_starts]
  constructor
  · intro read
    split at read
    · exact (throw_bind_ne_ok _ _ _ read).elim
    next enough =>
    obtain ⟨byte, start, read⟩ := bind_eq_ok.mp read
    obtain ⟨kind, known, read⟩ := bind_eq_ok.mp read
    obtain ⟨first, there, read⟩ := bind_eq_ok.mp read
    obtain ⟨second, behind, read⟩ := bind_eq_ok.mp read
    obtain ⟨⟩ := read
    obtain rfl := ForkKind.ofByte_eq_ok.mp known
    obtain ⟨two, there⟩ := Word.field_eq_ok.mp there
    obtain ⟨-, behind⟩ := Word.field_eq_ok.mp behind
    exact ⟨kind, first, second, ⟨⟨two, Word.field_head_eq_ok.mp start⟩, there, behind⟩, rfl⟩
  · rintro ⟨kind, first, second, ⟨⟨two, start⟩, there, behind⟩, rfl⟩
    have room := Word.le_of_prefix_drop behind
    rw [Word.width_uint32] at room
    rw [if_neg (by omega)]
    apply bind_eq_ok.mpr
    refine ⟨kind.byte, Word.field_head_eq_ok.mpr start, ?_⟩
    apply bind_eq_ok.mpr
    refine ⟨kind, ForkKind.ofByte_eq_ok.mpr rfl, ?_⟩
    apply bind_eq_ok.mpr
    refine ⟨first, Word.field_eq_ok.mpr ⟨two, there⟩, ?_⟩
    apply bind_eq_ok.mpr
    exact ⟨second, Word.field_eq_ok.mpr ⟨by omega, behind⟩, rfl⟩

/-- Which bytes start with the fields of some key can be told from their number and the first of
them. -/
theorem exists_forkFields {bytes : Bytes} :
    (∃ kind first second, forkFields kind first second <+: bytes.clear [1]) ↔
      10 ≤ bytes.length ∧ ∃ byte, bytes.head? = some byte ∧ (byte = 0x00 ∨ byte = 0xFF) := by
  simp only [forkFields_starts]
  constructor
  · rintro ⟨kind, first, second, ⟨-, start⟩, -, behind⟩
    have room := Word.le_of_prefix_drop behind
    rw [Word.width_uint32] at room
    exact ⟨by omega, kind.byte, start, ForkKind.byte_iff.mp ⟨kind, rfl⟩⟩
  · rintro ⟨enough, byte, start, stands⟩
    obtain ⟨kind, rfl⟩ := ForkKind.byte_iff.mpr stands
    have inside : 2 + Word.width UInt32 ≤ bytes.length := Nat.le_trans (by decide) enough
    obtain ⟨first, there⟩ := Word.exists_prefix_drop UInt32 inside
    obtain ⟨second, behind⟩ := Word.exists_prefix_drop UInt32 enough
    exact ⟨kind, first, second, ⟨by omega, start⟩, there, behind⟩

/-- The format of keys that are about a fork. -/
def forkFormat (encode : Key → Bytes) : KeyFormat Key where
  encode := encode
  Storable _ := True
  Whole bytes := 10 ≤ bytes.length ∧ ∃ byte, bytes.head? = some byte ∧ (byte = 0x00 ∨ byte = 0xFF)
  padding := [1]
  front := 10
  cut length := [cut length]

/-- A tree whose keys are about forks reads these as they are written. -/
theorem forkFormat_readBy {encode : Key → Bytes} {schema : Schema Key Value}
    (reads : schema.decodeKey = readForkFields subject cut make)
    (writes : ∀ kind first second, encode (make kind first second) = forkFields kind first second)
    (every : ∀ key, ∃ kind first second, key = make kind first second) :
    (forkFormat cut encode).ReadBy schema := by
  have written : ∀ kind first second, (forkFormat cut encode).encode (make kind first second) =
      forkFields kind first second := writes
  apply KeyFormat.ReadBy.of_exact
  case exact =>
    intro bytes key
    rw [reads, readForkFields_eq_ok]
    constructor
    · rintro ⟨kind, first, second, within, rfl⟩
      rw [written]
      exact ⟨trivial, within⟩
    · rintro ⟨-, within⟩
      obtain ⟨kind, first, second, rfl⟩ := every key
      rw [written] at within
      exact ⟨kind, first, second, within, rfl⟩
  case cleared =>
    intro key rest
    obtain ⟨kind, first, second, rfl⟩ := every key
    rw [written]
    exact List.prefix_append _ rest
  case whole =>
    intro bytes
    apply exists_forkFields.symm.trans
    constructor
    · rintro ⟨kind, first, second, within⟩
      refine ⟨make kind first second, trivial, ?_⟩
      rw [written]
      exact within
    · rintro ⟨key, -, within⟩
      obtain ⟨kind, first, second, rfl⟩ := every key
      rw [written] at within
      exact ⟨kind, first, second, within⟩
  case stops =>
    intro bytes short
    refine ⟨_, List.mem_singleton_self _, ?_⟩
    rw [reads, readForkFields]
    exact if_pos short

end Forks

/-- The format of the keys of the overflow tree. -/
def overflowFormat : KeyFormat ExtentKey := forkFormat .extentKeyCut ExtentKey.encode

/-- The format of the keys of the hot files tree. -/
def hotFileFormat : KeyFormat HotFileKey := forkFormat .hotFileKeyCut HotFileKey.encode

/-- The overflow tree reads keys of its format. -/
theorem overflowFormat_readBy : overflowFormat.ReadBy overflowSchema :=
  forkFormat_readBy "extents key" .extentKeyCut ExtentKey.mk rfl (fun _ _ _ => rfl)
    fun key => ⟨key.kind, key.fileId, key.startBlock, rfl⟩

/-- So does the hot files tree. -/
theorem hotFileFormat_readBy : hotFileFormat.ReadBy hotFileSchema :=
  forkFormat_readBy "hot files key" .hotFileKeyCut HotFileKey.mk rfl (fun _ _ _ => rfl)
    fun key => ⟨key.kind, key.temperature, key.fileId, rfl⟩

section Names

/-- The format of the keys of the catalog. -/
def catalogFormat : KeyFormat CatalogKey where
  encode := CatalogKey.encode
  Storable key := key.name.units.length ≤ Name.maxUnits
  Whole bytes := 4 ≤ bytes.length ∧ Name.Whole (bytes.drop 4)
  padding := []
  front := 6
  cut length := [.catalogKeyCut length]

/-- The format of the keys of the attributes tree. -/
def attributeFormat : KeyFormat AttributeKey where
  encode := AttributeKey.encode
  Storable key := key.name.units.length ≤ Name.maxUnits
  Whole bytes := 10 ≤ bytes.length ∧ Name.Whole (bytes.drop 10)
  padding := [0, 1]
  front := 10
  cut length := [0, 2, 6].map (FormatFault.fieldCut "attributes key" length)

/-- Bytes start with a key of the catalog if its parent and its name are there. -/
theorem CatalogKey.encode_starts {key : CatalogKey} {bytes : Bytes} : key.encode <+: bytes ↔
    Word.bytes key.parentId <+: bytes ∧ key.name.encode <+: bytes.drop 4 := by
  rw [CatalogKey.encode, Bytes.append_prefix, Word.length_encode, Word.width_uint32]

/-- A key of the catalog is read from the bytes that start with its stored form. -/
theorem CatalogKey.decode_eq_ok {bytes : Bytes} {key : CatalogKey} :
    CatalogKey.decode bytes = .ok key ↔
      key.name.units.length ≤ Name.maxUnits ∧ key.encode <+: bytes := by
  unfold CatalogKey.decode
  rw [CatalogKey.encode_starts]
  constructor
  · intro read
    split at read
    · exact (throw_bind_ne_ok _ _ _ read).elim
    obtain ⟨parentId, there, read⟩ := bind_eq_ok.mp read
    obtain ⟨⟨name, length⟩, named, read⟩ := bind_eq_ok.mp read
    obtain ⟨⟩ := read
    obtain ⟨short, behind, -⟩ := Name.decode_eq_ok.mp named
    exact ⟨short, (Word.field_eq_ok.mp there).2, behind⟩
  · rintro ⟨short, there, behind⟩
    have room := behind.length_le
    rw [Name.length_encode, Name.encodedLength, List.length_drop] at room
    rw [if_neg (by omega)]
    apply bind_eq_ok.mpr
    refine ⟨key.parentId, Word.field_eq_ok.mpr ⟨Nat.zero_le _, there⟩, ?_⟩
    apply bind_eq_ok.mpr
    exact ⟨(key.name, _), Name.decode_eq_ok.mpr ⟨short, behind, rfl⟩, rfl⟩

/-- The catalog reads its keys as they are written. -/
theorem catalogFormat_readBy (caseSensitive : Bool) :
    catalogFormat.ReadBy (Catalog.schema caseSensitive) := by
  apply KeyFormat.ReadBy.of_exact
  case exact =>
    intro bytes key
    exact CatalogKey.decode_eq_ok
  case cleared =>
    intro key rest
    exact List.prefix_append _ rest
  case whole =>
    intro bytes
    constructor
    · rintro ⟨enough, named⟩
      have inside : 0 + Word.width UInt32 ≤ bytes.length := enough
      obtain ⟨parentId, there⟩ := Word.exists_prefix_drop UInt32 inside
      obtain ⟨name, short, behind⟩ := Name.whole_iff.mp named
      exact ⟨⟨parentId, name⟩, short, CatalogKey.encode_starts.mpr ⟨there, behind⟩⟩
    · rintro ⟨key, short, within⟩
      obtain ⟨there, behind⟩ := CatalogKey.encode_starts.mp within
      refine ⟨?_, Name.whole_iff.mpr ⟨key.name, short, behind⟩⟩
      have room := there.length_le
      rwa [Word.length_encode] at room
  case stops =>
    intro bytes short
    refine ⟨_, List.mem_singleton_self _, ?_⟩
    exact if_pos short

/-- Bytes start with a key of the attributes tree, but for the padding, if its file, its block and
its name are there. -/
theorem AttributeKey.encode_starts {key : AttributeKey} {bytes : Bytes} :
    key.encode <+: bytes.clear [0, 1] ↔ 2 ≤ bytes.length ∧ Word.bytes key.fileId <+: bytes.drop 2 ∧
      Word.bytes key.startBlock <+: bytes.drop 6 ∧ key.name.encode <+: bytes.drop 10 := by
  have front : [0, 0] <+: bytes.clear [0, 1] ↔ 2 ≤ bytes.length := by
    match bytes with
    | [] => simp [Bytes.clear]
    | [byte] => simp [Bytes.clear]
    | high :: low :: rest => simp [Bytes.clear]
  rw [AttributeKey.encode, Bytes.append_prefix, Bytes.append_prefix, Bytes.append_prefix, front,
    and_assoc, and_assoc]
  simp only [List.length_append, Word.length_encode, Word.width_uint32, List.length_cons,
    List.length_nil, Nat.zero_add, Nat.reduceAdd]
  rw [Bytes.drop_clear (by decide), Bytes.drop_clear (by decide), Bytes.drop_clear (by decide)]

/-- The padding in front of a key of the attributes tree is read if it is there. -/
theorem AttributeKey.field_padding {bytes : Bytes} (two : 2 ≤ bytes.length) :
    ∃ padding : UInt16, Word.field "attributes key" bytes 0 = .ok padding :=
  Word.field_of_le two

/-- A key of the attributes tree is read from the bytes that start with its stored form, whatever
the padding is. -/
theorem AttributeKey.decode_eq_ok {bytes : Bytes} {key : AttributeKey} :
    AttributeKey.decode bytes = .ok key ↔
      key.name.units.length ≤ Name.maxUnits ∧ key.encode <+: bytes.clear [0, 1] := by
  unfold AttributeKey.decode
  rw [AttributeKey.encode_starts]
  constructor
  · intro read
    obtain ⟨padding, -, read⟩ := bind_eq_ok.mp read
    obtain ⟨fileId, there, read⟩ := bind_eq_ok.mp read
    obtain ⟨startBlock, behind, read⟩ := bind_eq_ok.mp read
    obtain ⟨⟨name, length⟩, named, read⟩ := bind_eq_ok.mp read
    obtain ⟨⟩ := read
    obtain ⟨short, last, -⟩ := Name.decode_eq_ok.mp named
    obtain ⟨two, there⟩ := Word.field_eq_ok.mp there
    obtain ⟨-, behind⟩ := Word.field_eq_ok.mp behind
    exact ⟨short, two, there, behind, last⟩
  · rintro ⟨short, two, there, behind, last⟩
    have room := Word.le_of_prefix_drop there
    rw [Word.width_uint32] at room
    obtain ⟨padding, skipped⟩ := AttributeKey.field_padding two
    apply bind_eq_ok.mpr
    refine ⟨padding, skipped, ?_⟩
    apply bind_eq_ok.mpr
    refine ⟨key.fileId, Word.field_eq_ok.mpr ⟨two, there⟩, ?_⟩
    apply bind_eq_ok.mpr
    refine ⟨key.startBlock, Word.field_eq_ok.mpr ⟨by omega, behind⟩, ?_⟩
    apply bind_eq_ok.mpr
    exact ⟨(key.name, _), Name.decode_eq_ok.mpr ⟨short, last, rfl⟩, rfl⟩

/-- Neither the padding nor what follows the name is looked at. -/
example : AttributeKey.decode [7, 9, 0, 0, 0, 1, 0, 0, 0, 2, 0, 1, 0, 65, 99] =
    .ok ⟨1, 2, ⟨[65]⟩⟩ := rfl

/-- Bytes that end before the name of a key are refused at the field in which they end. -/
theorem AttributeKey.decode_of_lt {bytes : Bytes} (short : bytes.length < 10) :
    ∃ position ∈ [0, 2, 6], AttributeKey.decode bytes =
      .error (.invalid (.fieldCut "attributes key" bytes.length position)) := by
  unfold AttributeKey.decode
  by_cases none : bytes.length < 2
  · refine ⟨0, by decide, ?_⟩
    apply bind_eq_error.mpr
    exact .inl (Word.field_of_lt none)
  obtain ⟨padding, skipped⟩ := AttributeKey.field_padding (Nat.not_lt.mp none)
  by_cases one : bytes.length < 6
  · refine ⟨2, by decide, ?_⟩
    apply bind_eq_error.mpr
    refine .inr ⟨padding, skipped, ?_⟩
    apply bind_eq_error.mpr
    exact .inl (Word.field_of_lt one)
  have there : ∃ fileId : UInt32, Word.field "attributes key" bytes 2 = .ok fileId :=
    Word.field_of_le (Nat.not_lt.mp one)
  obtain ⟨fileId, there⟩ := there
  refine ⟨6, by decide, ?_⟩
  apply bind_eq_error.mpr
  refine .inr ⟨padding, skipped, ?_⟩
  apply bind_eq_error.mpr
  refine .inr ⟨fileId, there, ?_⟩
  apply bind_eq_error.mpr
  exact .inl (Word.field_of_lt short)

/-- The attributes tree reads its keys as they are written. -/
theorem attributeFormat_readBy : attributeFormat.ReadBy attributeSchema := by
  apply KeyFormat.ReadBy.of_exact
  case exact =>
    intro bytes key
    exact AttributeKey.decode_eq_ok
  case cleared =>
    intro key rest
    exact List.prefix_append _ rest
  case whole =>
    intro bytes
    constructor
    · rintro ⟨enough, named⟩
      have inside : 2 + Word.width UInt32 ≤ bytes.length := Nat.le_trans (by decide) enough
      obtain ⟨fileId, there⟩ := Word.exists_prefix_drop UInt32 inside
      obtain ⟨startBlock, behind⟩ := Word.exists_prefix_drop UInt32 enough
      obtain ⟨name, short, last⟩ := Name.whole_iff.mp named
      refine ⟨⟨fileId, startBlock, name⟩, short, AttributeKey.encode_starts.mpr ?_⟩
      exact ⟨Nat.le_trans (by decide) enough, there, behind, last⟩
    · rintro ⟨key, short, within⟩
      obtain ⟨two, there, behind, last⟩ := AttributeKey.encode_starts.mp within
      have room := last.length_le
      rw [Name.length_encode, Name.encodedLength, List.length_drop] at room
      refine ⟨?_, Name.whole_iff.mpr ⟨key.name, short, last⟩⟩
      show 10 ≤ bytes.length
      omega
  case stops =>
    intro bytes short
    obtain ⟨position, place, refused⟩ := AttributeKey.decode_of_lt short
    exact ⟨_, List.mem_map_of_mem place, refused⟩

end Names

/-- **Keys are read as they are written, in all four trees.** A key is read back from its stored
form with anything behind it, if its name has no more units than a name may have. Which bytes hold
a key is told by their number, by the byte of the fork and by the count of the name, and what is
read from them is written as they are, but for the padding. Bytes that end too early are refused
before anything behind their end is looked for. -/
theorem keys_read_back (caseSensitive : Bool) :
    catalogFormat.ReadBy (Catalog.schema caseSensitive) ∧ overflowFormat.ReadBy overflowSchema ∧
      attributeFormat.ReadBy attributeSchema ∧ hotFileFormat.ReadBy hotFileSchema :=
  ⟨catalogFormat_readBy caseSensitive, overflowFormat_readBy, attributeFormat_readBy,
    hotFileFormat_readBy⟩

end HfsPlus
