import HfsPlus.Proofs.Code
import HfsPlus.Proofs.Layout
import HfsPlus.Proofs.Outcome
import HfsPlus.Tree.Node

/-!
# The format of a node's block

A block spells a node exactly if it is `Formed`: it starts with a descriptor of a known kind,
has room for the table of offsets behind it, and the offsets, read from the back, start behind
the descriptor, never decrease, and end before the table. Nothing else is asked of the bytes.

Of a node that was accepted every record can then be taken. It lies inside the block, between
its own offset and the next one, so that the records follow each other without gap or overlap,
clear of the descriptor and of the table, and what is left before the table is the free space.

The other way round, records that are laid out in a block, one behind the other and with their
table at the end, are the records of the node that the block spells.
-/

namespace HfsPlus

namespace Node

/-- The offset in a place of the table at the end of a block, counted from the back. -/
def offsetAt (block : Bytes) (place : Nat) : Nat :=
  Bytes.value ((block.drop (block.length - 2 * (place + 1))).take 2)

/-- The offsets of a block with some records, and that of the free space behind them. -/
def offsetsOf (block : Bytes) (count : Nat) : List Nat :=
  (List.range (count + 1)).map (offsetAt block)

/-- What lies between an offset and the next one. -/
def recordIn (block : Bytes) (place : Nat) : Bytes :=
  (block.drop (offsetAt block place)).take (offsetAt block (place + 1) - offsetAt block place)

/-- A block that spells a node. -/
structure Formed (block : Bytes) (descriptor : NodeDescriptor) (kind : NodeKind) : Prop where
  /-- It starts with the descriptor. -/
  start : Stored.encode descriptor <+: block
  /-- The kind is known. -/
  known : Coded.code kind = descriptor.kind.toInt
  /-- The table of offsets fits behind the descriptor. -/
  room : nodeDescriptorSize + tableSize descriptor.numRecords.toNat ≤ block.length
  /-- No record starts inside the descriptor. -/
  first : nodeDescriptorSize ≤ offsetAt block 0
  /-- No record ends before it starts. -/
  ascending : ∀ place < descriptor.numRecords.toNat,
    offsetAt block place ≤ offsetAt block (place + 1)
  /-- The free space ends where the table starts. -/
  last : offsetAt block descriptor.numRecords.toNat ≤
    block.length - tableSize descriptor.numRecords.toNat

/-- The node that a block with a descriptor spells. -/
def spelled (tree : String) (number : UInt32) (block : Bytes) (descriptor : NodeDescriptor)
    (kind : NodeKind) : Node where
  tree := tree
  number := number
  descriptor := descriptor
  kind := kind
  offsets := offsetsOf block descriptor.numRecords.toNat
  records := (cutAt (offsetsOf block descriptor.numRecords.toNat)
    (block.drop (offsetAt block 0))).toArray
  freeSpace := block.length - tableSize descriptor.numRecords.toNat -
    offsetAt block descriptor.numRecords.toNat

section Table

variable (block : Bytes) (count : Nat)

/-- The words at the end of a block are its offsets, from the last to the first. One more word
is one more offset behind the others, so the induction is on how many are read. -/
theorem reverse_wordsOf (room : 2 * count ≤ block.length) :
    (wordsOf (block.drop (block.length - 2 * count))).reverse =
      (List.range count).map (offsetAt block) := by
  induction count with
  | zero => simp [wordsOf]
  | succ count inductionHypothesis =>
    have high : block.length - 2 * (count + 1) < block.length := by omega
    have low : block.length - 2 * (count + 1) + 1 < block.length := by omega
    have behind : block.length - 2 * (count + 1) + 1 + 1 = block.length - 2 * count := by omega
    have split : block.drop (block.length - 2 * (count + 1)) =
        block[block.length - 2 * (count + 1)] :: block[block.length - 2 * (count + 1) + 1] ::
          block.drop (block.length - 2 * count) := by
      rw [List.drop_eq_getElem_cons high, List.drop_eq_getElem_cons low, behind]
    have offset : offsetAt block count = Bytes.value [block[block.length - 2 * (count + 1)],
        block[block.length - 2 * (count + 1) + 1]] := by
      rw [offsetAt, split]
      rfl
    rw [split, wordsOf, List.reverse_cons, inductionHypothesis (by omega), List.range_succ,
      List.map_append, List.map_singleton, offset]

/-- The table of a block with some records. -/
theorem reverse_wordsOf_table (room : tableSize count ≤ block.length) :
    (wordsOf (block.drop (block.length - tableSize count))).reverse = offsetsOf block count :=
  reverse_wordsOf block (count + 1) room

/-- The first offset of a table is that of the first record. -/
theorem headD_offsetsOf : (offsetsOf block count).headD 0 = offsetAt block 0 := by
  simp [offsetsOf, List.range_succ_eq_map]

/-- The last one is where the free space starts. -/
theorem getLastD_offsetsOf : (offsetsOf block count).getLastD 0 = offsetAt block count := by
  simp [offsetsOf, List.range_succ]

/-- Offsets never decrease if none is greater than the next one. -/
theorem isChain_offsetsOf : (offsetsOf block count).IsChain (· ≤ ·) ↔
    ∀ place < count, offsetAt block place ≤ offsetAt block (place + 1) := by
  simp [offsetsOf, List.isChain_iff_getElem]

/-- Offsets never decrease if no place is found where they do. -/
theorem firstDecrease_eq_none (record : Nat) (offsets : List Nat) :
    firstDecrease record offsets = none ↔ offsets.IsChain (· ≤ ·) := by
  fun_induction firstDecrease record offsets with
  | case1 record first second rest decrease => simp [Nat.not_le.mpr decrease]
  | case2 record first second rest onward inductionHypothesis =>
    simp [inductionHypothesis, Nat.not_lt.mp onward]
  | case3 offsets record short =>
    cases offsets with
    | nil => simp
    | cons first rest =>
      cases rest with
      | nil => simp
      | cons second rest => exact absurd rfl (short first second rest)

end Table

/-- A node is read exactly from the blocks that are formed, and it is the node that they spell.
Each check fails for blocks that are not formed in one way, and for no others. -/
theorem parse_eq_ok {tree : String} {number : UInt32} {block : Bytes} {node : Node} :
    parse tree number block = .ok node ↔
      ∃ descriptor kind, Formed block descriptor kind ∧
        node = spelled tree number block descriptor kind := by
  constructor
  · intro parsed
    obtain ⟨descriptor, read, parsed⟩ := bind_eq_ok.mp parsed
    obtain ⟨kind, coded, parsed⟩ := bind_eq_ok.mp parsed
    dsimp only at parsed
    split at parsed
    · exact (throw_bind_ne_ok _ _ _ parsed).elim
    next room =>
    rw [reverse_wordsOf_table _ _ (by omega), headD_offsetsOf, getLastD_offsetsOf] at parsed
    split at parsed
    · exact (throw_bind_ne_ok _ _ _ parsed).elim
    next first =>
    split at parsed
    · exact (throw_bind_ne_ok _ _ _ parsed).elim
    next ascending =>
    split at parsed
    · exact (throw_bind_ne_ok _ _ _ parsed).elim
    next last =>
    obtain ⟨⟩ := parsed
    refine ⟨descriptor, kind, ?_, rfl⟩
    constructor
    case start => exact Stored.read_eq_ok.mp read
    case known => exact Coded.ofCode_eq_ok.mp (mapError_eq_ok.mp coded)
    case room => omega
    case first => omega
    case ascending =>
      rw [← isChain_offsetsOf, ← firstDecrease_eq_none 0]
      cases decrease : firstDecrease 0 (offsetsOf block descriptor.numRecords.toNat) with
      | none => rfl
      | some found => exact (ascending _ _ _ decrease).elim
    case last => omega
  · rintro ⟨descriptor, kind, formed, rfl⟩
    have room := formed.room
    have first := formed.first
    have last := formed.last
    have ascending : firstDecrease 0 (offsetsOf block descriptor.numRecords.toNat) = none := by
      rw [firstDecrease_eq_none, isChain_offsetsOf]
      exact formed.ascending
    apply bind_eq_ok.mpr
    refine ⟨descriptor, Stored.read_eq_ok.mpr formed.start, ?_⟩
    apply bind_eq_ok.mpr
    refine ⟨kind, mapError_eq_ok.mpr (Coded.ofCode_eq_ok.mpr formed.known), ?_⟩
    dsimp only
    rw [if_neg (by omega), reverse_wordsOf_table _ _ (by omega), headD_offsetsOf,
      getLastD_offsetsOf, if_neg (by omega), ascending, if_neg (by omega)]
    rfl

section Cuts

variable (block : Bytes) (places : Nat → Nat)

/-- Cutting at ascending places takes what lies between each of them and the next one. -/
theorem cutAt_map (first count : Nat)
    (ascending : ∀ place < count, places (first + place) ≤ places (first + place + 1)) :
    cutAt ((List.range' first (count + 1)).map places) (block.drop (places first)) =
      (List.range' first count).map fun place =>
        (block.drop (places place)).take (places (place + 1) - places place) := by
  induction count generalizing first with
  | zero => rfl
  | succ count inductionHypothesis =>
    have onward : places first ≤ places (first + 1) := ascending 0 (by omega)
    have later := inductionHypothesis (first + 1) fun place inside => by
      have next := ascending (place + 1) (by omega)
      rwa [← Nat.add_assoc, Nat.add_right_comm] at next
    have behind : (block.drop (places first)).drop (places (first + 1) - places first) =
        block.drop (places (first + 1)) := by
      rw [List.drop_drop]
      congr 1
      omega
    rw [List.range'_succ, List.map_cons] at later
    rw [List.range'_succ, List.map_cons, List.range'_succ, List.map_cons, cutAt, behind, later,
      List.range'_succ, List.map_cons]

/-- What lies between ascending places, one after the other, is what lies between the first and
the last of them. -/
theorem flatten_between (count : Nat)
    (ascending : ∀ place < count, places place ≤ places (place + 1)) :
    ((List.range count).map fun place =>
        (block.drop (places place)).take (places (place + 1) - places place)).flatten =
      (block.drop (places 0)).take (places count - places 0) ∧ places 0 ≤ places count := by
  induction count with
  | zero => simp
  | succ count inductionHypothesis =>
    obtain ⟨before, reached⟩ := inductionHypothesis fun place inside => ascending place (by omega)
    have onward := ascending count (by omega)
    have split : places (count + 1) - places 0 =
        (places count - places 0) + (places (count + 1) - places count) := by omega
    have there : places 0 + (places count - places 0) = places count := by omega
    refine ⟨?_, by omega⟩
    rw [List.range_succ, List.map_append, List.flatten_append, before, split, List.take_add,
      List.drop_drop, there]
    simp

end Cuts

/-- What can be taken of a node: each of its records where the block has it, and no others, and
the free space between the last of them and the table. -/
structure Readout (block : Bytes) (node : Node) : Prop where
  count : node.count = node.descriptor.numRecords.toNat
  offsets : node.offsets = offsetsOf block node.count
  /-- A record lies inside the block, from its offset to the next one. -/
  inside : ∀ place < node.count, ∃ record, node.record place = .ok record ∧
    block.slice? (offsetAt block place) (offsetAt block (place + 1) - offsetAt block place) =
      some record
  /-- There are no other records. -/
  outside : ∀ place, node.count ≤ place →
    node.record place = .error (.recordOutOfRange place node.count)
  /-- The records leave nothing out between the first offset and the free space. -/
  whole : block.slice? (offsetAt block 0) (offsetAt block node.count - offsetAt block 0) =
    some node.records.toList.flatten
  /-- They start behind the descriptor. -/
  clear : nodeDescriptorSize ≤ offsetAt block 0
  /-- They do not overlap. -/
  apart : ∀ before behind, before ≤ behind → behind ≤ node.count →
    offsetAt block before ≤ offsetAt block behind
  /-- The free space is between them and the table. -/
  free : offsetAt block node.count + node.freeSpace + tableSize node.count = block.length

namespace Formed

variable {block : Bytes} {descriptor : NodeDescriptor} {kind : NodeKind}
variable (formed : Formed block descriptor kind) (tree : String) (number : UInt32)
include formed

/-- Offsets further on in the table are not smaller. -/
theorem offsetAt_le {before behind : Nat} (order : before ≤ behind)
    (inside : behind ≤ descriptor.numRecords.toNat) :
    offsetAt block before ≤ offsetAt block behind := by
  induction order with
  | refl => exact Nat.le_refl _
  | step _ inductionHypothesis =>
    apply Nat.le_trans (inductionHypothesis (by omega))
    exact formed.ascending _ (by omega)

/-- The records of the node are what lies between the offsets. -/
theorem records_spelled : (spelled tree number block descriptor kind).records.toList =
    (List.range descriptor.numRecords.toNat).map (recordIn block) := by
  have cut := cutAt_map block (offsetAt block) 0 descriptor.numRecords.toNat fun place inside => by
    rw [Nat.zero_add]
    exact formed.ascending place inside
  simp only [spelled, offsetsOf, List.range_eq_range'] at cut ⊢
  exact cut

/-- All of a node that was spelled can be taken. -/
theorem readout : Readout block (spelled tree number block descriptor kind) := by
  have room := formed.room
  have last := formed.last
  have records := formed.records_spelled tree number
  have count : (spelled tree number block descriptor kind).count =
      descriptor.numRecords.toNat := by
    rw [Node.count, ← Array.length_toList, records, List.length_map, List.length_range]
  constructor
  case count => exact count
  case offsets => rw [count, spelled]
  case inside =>
    intro place within
    rw [count] at within
    have ends := formed.offsetAt_le (show place + 1 ≤ _ from within) (Nat.le_refl _)
    have onward := formed.ascending place within
    have found : (spelled tree number block descriptor kind).records[place]? =
        some (recordIn block place) := by
      rw [← Array.getElem?_toList, records]
      simp [within]
    refine ⟨recordIn block place, ?_, ?_⟩
    · rw [record, found]
    · rw [Bytes.slice?, if_pos (by omega), recordIn]
  case outside =>
    intro place beyond
    have missing : (spelled tree number block descriptor kind).records[place]? = none :=
      Array.getElem?_eq_none beyond
    rw [record, missing]
  case whole =>
    obtain ⟨between, onward⟩ := flatten_between block (offsetAt block) descriptor.numRecords.toNat
      formed.ascending
    have joined : (spelled tree number block descriptor kind).records.toList.flatten =
        (block.drop (offsetAt block 0)).take
          (offsetAt block descriptor.numRecords.toNat - offsetAt block 0) := by
      rw [records]
      exact between
    rw [Bytes.slice?, count, if_pos (by omega), joined]
  case clear => exact formed.first
  case apart =>
    intro before behind order within
    rw [count] at within
    exact formed.offsetAt_le order within
  case free =>
    have left : (spelled tree number block descriptor kind).freeSpace =
        block.length - tableSize descriptor.numRecords.toNat -
          offsetAt block descriptor.numRecords.toNat := rfl
    rw [count, left]
    omega

end Formed

section LayingOut

/-- Where records start that are laid one behind the other, and where the last one ends. -/
def startsFrom : (start : Nat) → List Bytes → List Nat
  | start, [] => [start]
  | start, record :: later => start :: startsFrom (start + record.length) later

/-- A block with some records and with some bytes between them and the table. -/
def layOut (descriptor : NodeDescriptor) (records : List Bytes) (free : Bytes) : Bytes :=
  Stored.encode { descriptor with numRecords := UInt16.ofNat records.length } ++
    records.flatten ++ free ++
      (startsFrom nodeDescriptorSize records).reverse.flatMap fun start =>
        Word.bytes (UInt16.ofNat start)

variable (start : Nat) (records : List Bytes)

/-- The first record starts where the records do. -/
theorem startsFrom_eq_cons : ∃ later, startsFrom start records = start :: later := by
  cases records with
  | nil => exact ⟨[], rfl⟩
  | cons record later => exact ⟨_, rfl⟩

/-- There is one start for each record, and one for what follows them. -/
theorem length_startsFrom : (startsFrom start records).length = records.length + 1 := by
  induction records generalizing start with
  | nil => rfl
  | cons record later inductionHypothesis => simp [startsFrom, inductionHypothesis]

/-- The last start is the end of all records. -/
theorem getLastD_startsFrom :
    (startsFrom start records).getLastD 0 = start + records.flatten.length := by
  induction records generalizing start with
  | nil => simp [startsFrom]
  | cons record later inductionHypothesis =>
    obtain ⟨behind, split⟩ := startsFrom_eq_cons (start + record.length) later
    have ends := inductionHypothesis (start + record.length)
    rw [split] at ends
    rw [startsFrom, split, List.getLastD_cons, List.flatten_cons, List.length_append,
      ← Nat.add_assoc, ← ends, List.getLastD_cons, List.getLastD_cons]

/-- No record starts behind the end of all of them. -/
theorem le_of_mem_startsFrom {offset : Nat} (member : offset ∈ startsFrom start records) :
    offset ≤ start + records.flatten.length := by
  induction records generalizing start with
  | nil => simp_all [startsFrom]
  | cons record later inductionHypothesis =>
    rw [List.flatten_cons, List.length_append]
    rcases List.mem_cons.mp member with rfl | behind
    · omega
    · have bound := inductionHypothesis _ behind
      omega

/-- Starts never decrease. -/
theorem isChain_startsFrom : (startsFrom start records).IsChain (· ≤ ·) := by
  induction records generalizing start with
  | nil => exact .singleton start
  | cons record later inductionHypothesis =>
    obtain ⟨behind, split⟩ := startsFrom_eq_cons (start + record.length) later
    have chain := inductionHypothesis (start + record.length)
    rw [startsFrom, split]
    rw [split] at chain
    exact .cons_cons (Nat.le_add_right _ _) chain

/-- Cutting where records start gives the records back, whatever lies behind them. -/
theorem cutAt_startsFrom (behind : Bytes) :
    cutAt (startsFrom start records) (records.flatten ++ behind) = records := by
  induction records generalizing start with
  | nil => rfl
  | cons record later inductionHypothesis =>
    obtain ⟨starts, split⟩ := startsFrom_eq_cons (start + record.length) later
    have rest := inductionHypothesis (start + record.length)
    rw [split] at rest
    rw [startsFrom, split, cutAt, Nat.add_sub_cancel_left, List.flatten_cons, List.append_assoc,
      List.take_left, List.drop_left, rest]

/-- The words of some offsets are these offsets, as far as a word can hold them. -/
theorem wordsOf_flatMap (offsets : List Nat) (small : ∀ offset ∈ offsets, offset < 0x10000) :
    wordsOf (offsets.flatMap fun offset => Word.bytes (UInt16.ofNat offset)) = offsets := by
  induction offsets with
  | nil => rfl
  | cons offset later inductionHypothesis =>
    have here : offset < 0x10000 := small offset List.mem_cons_self
    have value : Bytes.value (Word.bytes (UInt16.ofNat offset)) = offset := by
      rw [Word.value_bytes]
      exact UInt16.toNat_ofNat_of_lt' here
    obtain ⟨high, low, written⟩ :=
      List.length_eq_two.mp (Word.length_encode .bigEndian (UInt16.ofNat offset))
    have rest := inductionHypothesis fun other member => small other (List.mem_cons_of_mem _ member)
    rw [List.flatMap_cons]
    rw [Word.bytes, written] at value ⊢
    rw [List.cons_append, List.cons_append, List.nil_append, wordsOf, value, rest]

end LayingOut

section LaidOut

variable {descriptor : NodeDescriptor} {records : List Bytes} {free : Bytes}

/-- A block that was laid out, with its table apart from what lies before it. -/
theorem layOut_eq : layOut descriptor records free =
    (Stored.encode { descriptor with numRecords := UInt16.ofNat records.length } ++
      (records.flatten ++ free)) ++
        (startsFrom nodeDescriptorSize records).reverse.flatMap fun start =>
          Word.bytes (UInt16.ofNat start) := by
  simp only [layOut, List.append_assoc]

/-- A descriptor takes its fourteen bytes. -/
theorem length_encode_descriptor (descriptor : NodeDescriptor) :
    (Stored.encode descriptor).length = nodeDescriptorSize :=
  Layout.length_encode _ _ descriptor

variable (descriptor records free) in
/-- A node takes its descriptor, its records, its free space and its table. -/
theorem length_layOut : (layOut descriptor records free).length =
    nodeDescriptorSize + records.flatten.length + free.length + tableSize records.length := by
  rw [layOut, List.length_append, List.length_append, List.length_append,
    length_encode_descriptor, Word.length_flatMap, Word.width_uint16, List.length_reverse,
    length_startsFrom, tableSize]

variable (fits : (layOut descriptor records free).length ≤ 0x10000)
include fits

/-- Fewer records fit in a block than a word counts, since each has a word in the table. -/
theorem toNat_length_records : (UInt16.ofNat records.length).toNat = records.length := by
  apply UInt16.toNat_ofNat_of_lt'
  rw [length_layOut, tableSize] at fits
  rw [UInt16.size]
  omega

/-- The offsets of a block that was laid out are where its records start. -/
theorem offsetsOf_layOut :
    offsetsOf (layOut descriptor records free) records.length =
      startsFrom nodeDescriptorSize records := by
  have size := length_layOut descriptor records free
  have small : ∀ offset ∈ (startsFrom nodeDescriptorSize records).reverse, offset < 0x10000 := by
    intro offset member
    have bound := le_of_mem_startsFrom _ _ (List.mem_reverse.mp member)
    rw [size, tableSize] at fits
    omega
  have front : (layOut descriptor records free).length - tableSize records.length =
      (Stored.encode { descriptor with numRecords := UInt16.ofNat records.length } ++
        (records.flatten ++ free)).length := by
    rw [size, List.length_append, List.length_append, length_encode_descriptor]
    omega
  rw [← reverse_wordsOf_table _ _ (by omega), front, layOut_eq, List.drop_left,
    wordsOf_flatMap _ small, List.reverse_reverse]

/-- The first record starts behind the descriptor. -/
theorem offsetAt_layOut_zero : offsetAt (layOut descriptor records free) 0 =
    nodeDescriptorSize := by
  obtain ⟨later, split⟩ := startsFrom_eq_cons nodeDescriptorSize records
  rw [← headD_offsetsOf _ records.length, offsetsOf_layOut fits, split, List.headD_cons]

/-- The free space starts behind all records. -/
theorem offsetAt_layOut_length : offsetAt (layOut descriptor records free) records.length =
    nodeDescriptorSize + records.flatten.length := by
  rw [← getLastD_offsetsOf, offsetsOf_layOut fits, getLastD_startsFrom]

/-- A block that was laid out under a known kind spells a node. -/
theorem formed_layOut {kind : NodeKind} (known : Coded.code kind = descriptor.kind.toInt) :
    Formed (layOut descriptor records free)
      { descriptor with numRecords := UInt16.ofNat records.length } kind := by
  have size := length_layOut descriptor records free
  have counted := toNat_length_records fits
  constructor
  case start =>
    rw [layOut_eq, List.append_assoc]
    exact List.prefix_append _ _
  case known => exact known
  case room =>
    rw [counted]
    omega
  case first => exact Nat.le_of_eq (offsetAt_layOut_zero fits).symm
  case ascending =>
    rw [counted, ← isChain_offsetsOf, offsetsOf_layOut fits]
    exact isChain_startsFrom _ _
  case last =>
    rw [counted, offsetAt_layOut_length fits]
    omega

/-- It spells the node with these records and this much free space. -/
theorem spelled_layOut (tree : String) (number : UInt32) (kind : NodeKind) :
    spelled tree number (layOut descriptor records free)
        { descriptor with numRecords := UInt16.ofNat records.length } kind =
      { tree := tree
        number := number
        descriptor := { descriptor with numRecords := UInt16.ofNat records.length }
        kind := kind
        offsets := startsFrom nodeDescriptorSize records
        records := records.toArray
        freeSpace := free.length } := by
  have size := length_layOut descriptor records free
  have behind : (layOut descriptor records free).drop nodeDescriptorSize =
      records.flatten ++ (free ++
        (startsFrom nodeDescriptorSize records).reverse.flatMap fun start =>
          Word.bytes (UInt16.ofNat start)) := by
    rw [layOut_eq, List.append_assoc, List.drop_left' (length_encode_descriptor _),
      List.append_assoc]
  have left : (layOut descriptor records free).length - tableSize records.length -
      (nodeDescriptorSize + records.flatten.length) = free.length := by omega
  rw [spelled]
  simp only [toNat_length_records fits, offsetsOf_layOut fits, offsetAt_layOut_zero fits,
    offsetAt_layOut_length fits, behind, cutAt_startsFrom, left]

end LaidOut

/-- **Blocks are read exactly if they are formed.** Each record of a node that was read can then be
taken from where the block has it. Records that are laid out in a block, of at most the size
that offsets of a word can reach, are the records of the node that is read from it. -/
theorem blocks_parse (tree : String) (number : UInt32) :
    (∀ block, (∃ node, parse tree number block = .ok node) ↔
        ∃ descriptor kind, Formed block descriptor kind) ∧
      (∀ block node, parse tree number block = .ok node →
        Formed block node.descriptor node.kind ∧ Readout block node) ∧
      ∀ descriptor kind records free, Coded.code kind = descriptor.kind.toInt →
        (layOut descriptor records free).length ≤ 0x10000 →
          parse tree number (layOut descriptor records free) = .ok
            { tree := tree
              number := number
              descriptor := { descriptor with numRecords := UInt16.ofNat records.length }
              kind := kind
              offsets := startsFrom nodeDescriptorSize records
              records := records.toArray
              freeSpace := free.length } := by
  refine ⟨?_, ?_, ?_⟩
  · intro block
    constructor
    · rintro ⟨node, parsed⟩
      obtain ⟨descriptor, kind, formed, -⟩ := parse_eq_ok.mp parsed
      exact ⟨descriptor, kind, formed⟩
    · rintro ⟨descriptor, kind, formed⟩
      exact ⟨_, parse_eq_ok.mpr ⟨descriptor, kind, formed, rfl⟩⟩
  · intro block node parsed
    obtain ⟨descriptor, kind, formed, rfl⟩ := parse_eq_ok.mp parsed
    exact ⟨formed, formed.readout tree number⟩
  · intro descriptor kind records free known fits
    apply parse_eq_ok.mpr
    exact ⟨_, kind, formed_layOut fits known, (spelled_layOut fits tree number kind).symm⟩

end Node

end HfsPlus
