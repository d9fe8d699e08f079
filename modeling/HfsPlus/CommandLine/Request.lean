import HfsPlus.Code
import HfsPlus.CommandLine.Grammar

/-!
# What can be asked on the command line

A command line names a device, perhaps a partition of it and how many nodes to
cache, and then a command with its own options and operands. `Request.ofWords`
reads all of it; what it refuses is no command line.
-/

namespace HfsPlus.CommandLine

/-- One of the four trees. -/
inductive TreeName where
  | catalog
  | extents
  | attributes
  | hotFiles
  deriving DecidableEq, Repr

/-- The tree that a word names. -/
def TreeName.ofWord : String → Option TreeName
  | "catalog" => some .catalog
  | "extents" => some .extents
  | "attributes" => some .attributes
  | "hotfile" => some .hotFiles
  | _ => none

/-- What to show or do. -/
inductive Command where
  | header
  | partitions
  | node (tree : TreeName) (number : UInt32)
  | treeHeader (tree : TreeName)
  | path (path : String)
  | cnid (cnid : UInt32)
  | list (path : String)
  | extract (path output : String) (kind : ForkKind)
  | attributes (path : String)
  | summary
  | journal
  deriving DecidableEq, Repr

/-- A whole command line. -/
structure Request where
  device : String
  /-- The partition to inspect, rather than the first one that holds a volume. -/
  partition : Option Nat
  /-- How many nodes of each tree are cached. -/
  cacheNodes : Nat
  command : Command
  deriving DecidableEq, Repr

/-- A number below `bound` in decimal, perhaps after a plus sign. -/
def number? (bound : Nat) (word : String) : Option Nat :=
  let digits :=
    match word.toList with
    | '+' :: rest => rest
    | all => all
  if digits.isEmpty || !digits.all Char.isDigit then none
  else
    let value := digits.foldl (fun value digit => 10 * value + (digit.toNat - '0'.toNat)) 0
    if value < bound then some value else none

/-- A 32-bit number in decimal. A minus sign is allowed where it changes nothing, in
front of zero. -/
def word32? (word : String) : Option UInt32 :=
  match word.toList with
  | '-' :: rest => if !rest.isEmpty && rest.all (· == '0') then some 0 else none
  | _ => (number? UInt32.size word).map UInt32.ofNat

/-- The name of a file, which has at least one character. -/
def fileName? (word : String) : Option String := if word.isEmpty then none else some word

/-- Fill a place that can be filled once. -/
def fill {α : Type} (place : Option α) (value : Option α) : Option (Option α) :=
  match place, value with
  | none, some value => some (some value)
  | _, _ => none

/-- How many nodes of each tree are cached if nothing is said. -/
def defaultCacheNodes : Nat := 1024

/-- What was read in front of the command. -/
structure Front where
  device : Option String
  partition : Option Nat
  cacheNodes : Option Nat

/-- What was read behind the command. -/
structure Draft where
  operand : Option String
  tree : Option TreeName
  output : Option String
  resource : Bool

/-- The option that asks for help. -/
def helpSwitch {σ : Type} : Switch σ := .ending .help

/-- The option that chooses a tree. -/
def treeSwitch : Switch Draft :=
  .value fun word draft => do
    return { draft with tree := ← fill draft.tree (TreeName.ofWord word) }

/-- The option that names the file to write. -/
def outputSwitch : Switch Draft :=
  .value fun word draft => do
    return { draft with output := ← fill draft.output (fileName? word) }

/-- The option that chooses the resource fork. -/
def resourceSwitch : Switch Draft :=
  .flag fun draft => if draft.resource then none else some { draft with resource := true }

/-- No operand is taken. -/
def noOperand : String → Draft → Option Draft := fun _ _ => none

/-- One operand is taken that satisfies a condition. -/
def oneOperand (allowed : String → Bool) : String → Draft → Option Draft := fun word draft => do
  return { draft with operand := ← fill draft.operand (if allowed word then some word else none) }

/-- How a command is written and what it asks for. -/
structure Form where
  name : String
  /-- What the command does, for the help text. -/
  purpose : String
  long : List (String × Switch Draft)
  short : List (Char × Switch Draft)
  operand : String → Draft → Option Draft
  /-- The command, unless something it needs is missing. -/
  command : Draft → Option Command

/-- All commands. -/
def forms : List Form :=
  [ ⟨"header", "Show the volume header", [], [], noOperand, fun _ => some .header⟩,
    ⟨"partitions", "List the partition map", [], [], noOperand, fun _ => some .partitions⟩,
    ⟨"node", "Dump one B-tree node", [("tree", treeSwitch)], [],
      oneOperand fun word => (word32? word).isSome,
      fun draft => do
        return .node (draft.tree.getD .catalog) (← word32? (← draft.operand))⟩,
    ⟨"tree-header", "Show a B-tree header record", [("tree", treeSwitch)], [], noOperand,
      fun draft => some (.treeHeader (draft.tree.getD .catalog))⟩,
    ⟨"path", "Show the catalog record at a path", [], [], oneOperand fun _ => true,
      fun draft => draft.operand.map .path⟩,
    ⟨"cnid", "Show the catalog record of a CNID and its path", [], [],
      oneOperand fun word => (word32? word).isSome,
      fun draft => do return .cnid (← word32? (← draft.operand))⟩,
    ⟨"list", "List a folder", [], [], oneOperand fun _ => true,
      fun draft => some (.list (draft.operand.getD "/"))⟩,
    ⟨"extract", "Copy a fork to a file and print its SHA-256",
      [("output", outputSwitch), ("resource", resourceSwitch)], [('o', outputSwitch)],
      oneOperand fun _ => true,
      fun draft => do
        return .extract (← draft.operand) (← draft.output)
          (if draft.resource then .resource else .data)⟩,
    ⟨"attrs", "List extended attributes", [], [], oneOperand fun _ => true,
      fun draft => draft.operand.map .attributes⟩,
    ⟨"summary", "Whole-volume statistics", [], [], noOperand, fun _ => some .summary⟩,
    ⟨"journal", "Show the journal info block", [], [], noOperand, fun _ => some .journal⟩ ]

/-- The word that asks for help where a command could stand. -/
def helpWord : String := "help"

/-- The names of all commands. -/
def commandNames : List String := forms.map (·.name) ++ [helpWord]

/-- What may stand in front of the command. -/
def frontGrammar : Grammar Front where
  long :=
    [ ("partition", partition), ("cache-nodes", cacheNodes), ("help", helpSwitch),
      ("version", .ending .version) ]
  short := [('p', partition), ('h', helpSwitch), ('V', .ending .version)]
  operand word front := do
    return { front with device := ← fill front.device (fileName? word) }
  commands := commandNames
where
  partition : Switch Front := .value fun word front => do
    return { front with partition := ← fill front.partition (number? UInt64.size word) }
  cacheNodes : Switch Front := .value fun word front => do
    return { front with cacheNodes := ← fill front.cacheNodes (number? UInt64.size word) }

/-- What may stand behind a command. -/
def Form.grammar (form : Form) : Grammar Draft where
  long := form.long ++ [("help", helpSwitch)]
  short := form.short ++ [('h', helpSwitch)]
  operand := form.operand
  commands := []

/-- Read what stands behind the name of a command. -/
def Command.ofWords (name : String) (words : List String) : Except Ending Command := do
  if name = helpWord then
    throw (if words.all commandNames.contains && words.length ≤ 1 then .help else .misuse)
  match forms.find? fun form => form.name == name with
  | none => throw .misuse
  | some form =>
    let (draft, _) ← form.grammar.read .anything words ⟨none, none, none, false⟩
    match form.command draft with
    | some command => return command
    | none => throw .misuse

/-- Read a whole command line. -/
def Request.ofWords (words : List String) : Except Ending Request := do
  match ← frontGrammar.read .anything words ⟨none, none, none⟩ with
  | (_, none) => throw .misuse
  | (front, some (name, words)) =>
    let command ← Command.ofWords name words
    match front.device with
    | none => throw .misuse
    | some device =>
      return ⟨device, front.partition, front.cacheNodes.getD defaultCacheNodes, command⟩

end HfsPlus.CommandLine
