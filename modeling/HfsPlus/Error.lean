import HfsPlus.Code
import HfsPlus.Layout

/-!
# What can go wrong

Every refusal of the library is one of these causes; a search that finds nothing
is not among them. A cause carries what it needs to be understood, and the
wording of all of them stands in one place.

One cause is no refusal. A number that outgrows the word it is counted in ends the
program, so nothing is done about an overflow but to pass it on.
-/

namespace HfsPlus

/-- Why a piece of data does not have the form it should have. -/
inductive FormatFault where
  /-- A name ends before its length. -/
  | nameWithoutLength
  /-- A name claims more units than a name may have. -/
  | nameTooLong (count : Nat)
  /-- A name ends before its last unit. -/
  | nameCut (count available : Nat)
  /-- Something ends before a field that it must hold. -/
  | fieldCut (subject : String) (length position : Nat)
  | catalogKeyCut (length : Nat)
  | extentKeyCut (length : Nat)
  | hotFileKeyCut (length : Nat)
  /-- An attribute claims more bytes than its record holds. -/
  | inlineCut (size length : Nat)
  /-- A number stands for none of the alternatives of its field. -/
  | unknownCode (code : UnknownCode)
  /-- A run of blocks would lie on blocks that are mapped already. -/
  | extentOverlap (logicalStart blockCount : Nat)
  /-- The first node of a tree is not its description. -/
  | headerNodeKind (tree : String) (kind : Int)
  | nodeSize (tree : String) (size : Nat)
  | blockSize (size : Nat)
  | hotFilesMagic (magic : UInt32)
  /-- Thread records lead in a circle instead of to the root. -/
  | threadCycle (cnid : UInt32)
  deriving DecidableEq, Repr

/-- Why a node of a tree cannot be used. -/
inductive NodeFault where
  | offsetTableCut (records size : Nat)
  | firstOffsetLow (offset : Nat)
  | offsetsDecrease (record first second : Nat)
  | offsetTableHit (offset tableStart : Nat)
  | unknownKind (code : UnknownCode)
  | keyLengthMissing (record : Nat)
  | keyTooLong (record length size : Nat)
  | keyCut (record size length : Nat)
  | childMissing (record : Nat)
  | emptyIndex
  /-- A search came upon a node without keys. -/
  | unexpectedKind (kind : NodeKind)
  /-- A search went on below the depth that the tree claims. -/
  | tooDeep (levels : Nat)
  /-- Forward links go on after as many nodes as the tree has. -/
  | chainTooLong
  /-- A chain of leaves leads to another kind of node. -/
  | notLeaf (kind : NodeKind)
  deriving DecidableEq, Repr

/-- Everything that can go wrong. -/
inductive Error where
  | notFound (path : String)
  | permissionDenied (path : String)
  /-- What is at the path can hold no volume. -/
  | notReadable (path : String)
  /-- Reading failed for a reason of the system's own. -/
  | io (reason : String)
  /-- Fewer bytes are there than must be. -/
  | shortRead (offset wanted got : Nat)
  | notHfsPlus (signature : UInt16)
  /-- The embedded volume does not lie inside its wrapper; `outer` is the length
  of the wrapper, if it has one. -/
  | wrapperOverrun (offset length : Nat) (outer : Option Nat)
  | invalid (fault : FormatFault)
  | corruptNode (tree : String) (node : UInt32) (fault : NodeFault)
  /-- A record of a node does not hold what it should. -/
  | corruptRecord (tree : String) (node : UInt32) (record : Nat) (cause : Error)
  | nodeOutOfRange (tree : String) (node total : UInt32)
  | recordOutOfRange (record count : Nat)
  /-- A fixed structure ends too early, or goes on where it must end. -/
  | undecodable
  /-- No run of a fork holds a block that is needed. -/
  | unmappedBlock (file : UInt32) (fork : ForkKind) (block : Nat)
  /-- A sum or a count does not fit in its word. -/
  | overflow
  deriving DecidableEq, Repr

/-- What is at fault, and in what way. -/
def FormatFault.parts : FormatFault → String × String
  | nameWithoutLength => ("name", "missing length")
  | nameTooLong count => ("name", s!"length {count} exceeds 255")
  | nameCut count available => ("name", s!"{count} units do not fit in {available} bytes")
  | fieldCut subject length position =>
    (subject, s!"{length} bytes is too short for a field at byte {position}")
  | catalogKeyCut length => ("catalog key", s!"{length} bytes is shorter than the minimum of 6")
  | extentKeyCut length => ("extents key", s!"{length} bytes, expected 10")
  | hotFileKeyCut length => ("hot files key", s!"{length} bytes, expected 10")
  | inlineCut size length =>
    ("inline attribute", s!"{size} bytes of data do not fit in a {length} byte record")
  | unknownCode code => (code.field, code.message)
  | extentOverlap logicalStart blockCount =>
    ("extent list",
      s!"extent at logical block {logicalStart} ({blockCount} blocks) overlaps an existing extent")
  | headerNodeKind tree kind => ("B-tree header node", s!"{tree} tree node 0 has kind {kind}")
  | nodeSize tree size => ("B-tree header node", s!"{tree} tree has node size {size}")
  | blockSize size => ("volume header", s!"allocation block size {size}")
  | hotFilesMagic magic => ("hot files header", "magic " ++ Text.hexPadded 10 magic.toNat)
  | threadCycle cnid => ("catalog thread chain", s!"cycle while building the path of CNID {cnid}")

/-- The wording of a fault in a node. -/
def NodeFault.message : NodeFault → String
  | offsetTableCut records size =>
    s!"offset table for {records} records does not fit in {size} bytes"
  | firstOffsetLow offset => s!"first record offset {offset} overlaps the node descriptor"
  | offsetsDecrease record first second =>
    s!"record offsets decrease at record {record} ({first} then {second})"
  | offsetTableHit offset tableStart =>
    s!"free space offset {offset} runs into the offset table at {tableStart}"
  | unknownKind code => code.message
  | keyLengthMissing record => s!"record {record} has no key length"
  | keyTooLong record length size => s!"record {record} key length {length} exceeds {size}"
  | keyCut record size length =>
    s!"record {record} key of {size} bytes overruns its {length} byte record"
  | childMissing record => s!"record {record}: index record has no child pointer"
  | emptyIndex => "empty index node"
  | unexpectedKind kind => s!"unexpected {kind.label} node during search"
  | tooDeep levels => s!"search did not reach a leaf within {levels} levels"
  | chainTooLong => "sibling chain is longer than the tree"
  | notLeaf kind => s!"{kind.label} node in the leaf chain"

/-- The wording of an error. -/
def Error.message : Error → String
  | notFound path => path ++ ": no such file or device"
  | permissionDenied path => path ++ ": permission denied"
  | notReadable path => path ++ ": not a block device, character device or regular file"
  | io reason => "I/O error: " ++ reason
  | shortRead offset wanted got =>
    s!"short read at offset {Text.hex offset}: wanted {wanted} bytes, got {got}"
  | notHfsPlus signature =>
    s!"not an HFS+ volume (signature {Text.hexPadded 6 signature.toNat})"
  | wrapperOverrun offset length outer =>
    let bound := (outer.map Text.hex).getD "unbounded"
    s!"unsupported HFS wrapper: embedded volume at {Text.hex offset}+{Text.hex length} " ++
      s!"lies outside the {bound} byte wrapper"
  | invalid fault => "invalid " ++ fault.parts.1 ++ ": " ++ fault.parts.2
  | corruptNode tree node fault => s!"{tree} node {node}: {fault.message}"
  | corruptRecord tree node record cause =>
    s!"{tree} node {node}: record {record}: {cause.message}"
  | nodeOutOfRange tree node total => s!"{tree} node {node} out of range (tree has {total} nodes)"
  | recordOutOfRange record count => s!"record {record} out of range (node has {count} records)"
  | undecodable => "decode error"
  | unmappedBlock file fork block =>
    s!"{fork.label} fork of CNID {file} has no extent for block {block}"
  | overflow => "attempt to add with overflow"

/-- A number that stands for nothing is a fault of the field it stands in. -/
def UnknownCode.toError (unknown : UnknownCode) : Error := .invalid (.unknownCode unknown)

/-- Read a fixed structure off the front of some bytes, leaving the rest. -/
def Stored.read {α : Type} [Stored α] (bytes : Bytes) : Except Error α :=
  match Stored.decode? bytes with
  | some (value, _) => .ok value
  | none => .error .undecodable

/-- The sum of two words, if a word holds it. -/
def checkedSum (left right : UInt64) : Except Error UInt64 :=
  if left.toNat + right.toNat < UInt64.size then .ok (left + right) else .error .overflow

/-- One more than a count of steps, if a word holds it. -/
def checkedNext (steps : UInt32) : Except Error UInt32 :=
  if steps.toNat + 1 < UInt32.size then .ok (steps + 1) else .error .overflow

/-- A sum that a word holds is the sum of the numbers. -/
theorem checkedSum_eq_ok {left right sum : UInt64} :
    checkedSum left right = .ok sum ↔ sum.toNat = left.toNat + right.toNat := by
  have below := sum.toNat_lt
  rw [checkedSum]
  split
  next fits =>
    rw [Except.ok.injEq, ← UInt64.toNat_inj, UInt64.toNat_add, Nat.mod_eq_of_lt fits, eq_comm]
  next excess =>
    refine ⟨nofun, fun exact => absurd ?_ excess⟩
    rw [← exact]
    exact below

/-- A sum overflows exactly where no word holds it. -/
theorem checkedSum_eq_error {left right : UInt64} {cause : Error} :
    checkedSum left right = .error cause ↔
      cause = .overflow ∧ UInt64.size ≤ left.toNat + right.toNat := by
  rw [checkedSum]
  split
  next fits => exact ⟨nofun, fun ⟨_, excess⟩ => absurd fits (Nat.not_lt.mpr excess)⟩
  next excess =>
    rw [Except.error.injEq, eq_comm]
    exact (and_iff_left (Nat.not_lt.mp excess)).symm

/-- A count that a word holds is one more. -/
theorem checkedNext_eq_ok {steps next : UInt32} :
    checkedNext steps = .ok next ↔ next.toNat = steps.toNat + 1 := by
  have below := next.toNat_lt
  rw [checkedNext]
  split
  next fits =>
    rw [Except.ok.injEq, ← UInt32.toNat_inj, UInt32.toNat_add, UInt32.toNat_one,
      Nat.mod_eq_of_lt fits, eq_comm]
  next excess =>
    refine ⟨nofun, fun exact => absurd ?_ excess⟩
    rw [← exact]
    exact below

/-- A count overflows exactly at the greatest word. -/
theorem checkedNext_eq_error {steps : UInt32} {cause : Error} :
    checkedNext steps = .error cause ↔ cause = .overflow ∧ steps.toNat + 1 = UInt32.size := by
  have below : steps.toNat < UInt32.size := steps.toNat_lt
  rw [checkedNext]
  split
  next fits => exact ⟨nofun, fun ⟨_, full⟩ => absurd fits (by omega)⟩
  next excess =>
    rw [Except.error.injEq, eq_comm]
    exact (and_iff_left (by omega)).symm

/-- Below another word there is room for one more. -/
theorem exists_checkedNext {steps bound : UInt32} (below : steps < bound) :
    ∃ next, checkedNext steps = .ok next ∧ next ≤ bound := by
  have room := UInt32.lt_iff_toNat_lt.mp below
  have bounded : bound.toNat < UInt32.size := bound.toNat_lt
  cases counted : checkedNext steps with
  | error cause =>
    have full := (checkedNext_eq_error.mp counted).2
    omega
  | ok next =>
    refine ⟨next, rfl, ?_⟩
    rw [UInt32.le_iff_toNat_le, checkedNext_eq_ok.mp counted]
    exact room

/-- What holds of a count if it holds of the next one holds of every count, since a word is full
some time. -/
@[elab_as_elim]
theorem checkedNext_induction {motive : UInt32 → Prop}
    (count : ∀ steps, (∀ next, checkedNext steps = .ok next → motive next) → motive steps)
    (steps : UInt32) : motive steps := by
  generalize room : UInt32.size - steps.toNat = left
  induction left using Nat.strongRecOn generalizing steps with
  | ind left inductionHypothesis =>
    refine count steps fun next counted => inductionHypothesis _ ?_ next rfl
    have below : steps.toNat < UInt32.size := steps.toNat_lt
    have oneMore := checkedNext_eq_ok.mp counted
    omega

end HfsPlus
