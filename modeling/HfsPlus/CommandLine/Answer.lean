import HfsPlus.CommandLine.Host
import HfsPlus.CommandLine.Request
import HfsPlus.FileSystem.Catalog
import HfsPlus.FileSystem.Content
import HfsPlus.FileSystem.Emptied
import HfsPlus.FileSystem.Summary
import HfsPlus.Partition.Selection
import HfsPlus.Report.Entry
import HfsPlus.Report.Record
import HfsPlus.Report.Summary
import HfsPlus.Report.Volume

/-!
# Answering a command line

A request is answered with a text, or it fails with what was being done and why
that did not succeed.

What a command needs is done in a fixed order, which decides the failure if there
is more than one cause: the device is opened, its partition map is read, a volume
is chosen and the file system on it is found, and only then the command itself is
looked at. Copying a fork makes the file to write before it reads anything of the
fork, and writes what was read even if the rest cannot be. A file that is written
over while it is inspected has lost its bytes by then, so only an empty fork can be
copied over the device itself.
-/

namespace HfsPlus.CommandLine

/-- The name of the program. -/
def programName : String := "hfsinspect"

/-- The version of the program. -/
def programVersion : String := "0.1.0"

/-- Why there is no answer: what was being done, and what went wrong. -/
structure Failure where
  reasons : List String
  /-- The code that the program ends with. -/
  exitCode : Nat
  deriving DecidableEq, Repr

/-- The code of a program that was refused something. -/
def refusedCode : Nat := 1

/-- The code of a program that an overflow ended. -/
def overflowCode : Nat := 101

/-- A failure as one line. -/
def Failure.line (failure : Failure) : String := "error: " ++ ": ".intercalate failure.reasons

/-- The wording of an error and, where the system refused, the system's own. -/
def reasons : Error → List String
  | .io reason => [(Error.io reason).message, reason]
  | error => [error.message]

/-- A failure for an error that came up while some things were being done. An overflow ends the
program whatever was being done. -/
def Failure.ofError (activities : List String) : Error → Failure
  | .overflow => ⟨CommandLine.reasons .overflow, overflowCode⟩
  | error => ⟨activities ++ CommandLine.reasons error, refusedCode⟩

section

variable {m : Type → Type} [Monad m]

/-- Fail for a reason of the command's own. -/
def refuse {α : Type} (reason : String) : ExceptT Failure m α := throw ⟨[reason], refusedCode⟩

/-- Fail as a step fails. -/
def plainly {α : Type} (step : ExceptT Error m α) : ExceptT Failure m α :=
  step.adapt (.ofError [])

/-- Fail as a step fails, saying what was being done. -/
def doing {α : Type} (activity : String) (step : ExceptT Error m α) : ExceptT Failure m α :=
  step.adapt (.ofError [activity])

/-- Refuse what is absent. -/
def expect {α : Type} (reason : String) (found : Option α) : ExceptT Failure m α :=
  match found with
  | some value => return value
  | none => refuse reason

end

section Devices

variable {m : Type → Type} [Monad m] [Logging m]

/-- The raw device of a disk, which is tried if the disk itself cannot be opened. -/
def rawDevice (path : String) : Option String :=
  if "/dev/disk".isPrefixOf path then
    some ("/dev/rdisk" ++ String.ofList (path.toList.drop "/dev/disk".length))
  else none

/-- Open the device of a request. -/
def openDevice (host : Host m) (path : String) : ExceptT Failure m Volume := do
  match ← (Volume.open path (← host.status path)).run, rawDevice path with
  | .ok volume, _ => return volume
  | .error cause, none => throw (.ofError ["opening " ++ path] cause)
  | .error cause, some raw =>
    log (.openRetried cause raw)
    let status ← host.status raw
    doing ("opening " ++ raw) (Volume.open raw status)

/-- The volume to inspect: the part that was asked for, or the first that can be
one. -/
def chooseVolume (disk : Disk) : Option Nat → ExceptT Failure m Volume
  | some index =>
    expect s!"no partition {index}, the disk has {disk.children.length}" disk.children[index]?
  | none => do
    let found ← doing "probing for an HFS+ volume" disk.findHfs
    let selection ← expect "no HFS+ volume found" found
    return selection.volume

end Devices

/-- What a command works on. -/
structure Session (n : Type → Type) where
  host : Host n
  style : Report.Style
  /-- The path of the device. -/
  device : String
  disk : Disk
  inspection : Inspection n
  /-- The digest of copies. -/
  hasher : Hasher
  /-- How to go on when the device has just lost its bytes. -/
  loseBytes : n (Inspection n)

section Commands

variable {n : Type → Type} [Monad n] [Logging n]

/-- What is at a path. -/
def resolve (inspection : Inspection n) (path : String) : ExceptT Failure n CatalogEntry := do
  let found ← doing ("resolving " ++ path) (inspection.resolvePath path)
  expect (path ++ ": not found") found

/-- A report on a node of a tree. -/
def nodeReport {Key Value : Type} (style : Report.Style) (records : Report.Inspected Key Value)
    (access : Access n Key Value) (number : UInt32) : ExceptT Failure n String := do
  let node ← doing s!"reading {access.tree.schema.name} node {number}" (access.node true number)
  return Report.node style records access.tree node

/-- A report on the description of a tree. -/
def treeReport {Key Value : Type} (style : Report.Style) (access : Access n Key Value) : String :=
  Report.treeHeader style access.tree.schema.name access.tree.header

/-- The attributes tree, which a volume need not have. -/
def attributesTree (inspection : Inspection n) :
    ExceptT Failure n (Access n AttributeKey AttributeValue) := do
  expect "volume has no attributes B-tree" (← plainly inspection.attributes)

/-- The tree of hot files, which a volume need not have. -/
def hotFilesTree (inspection : Inspection n) :
    ExceptT Failure n (Access n HotFileKey HotFileRecord × HotFilesInfo) := do
  expect "volume has no hot files B-tree" (← plainly inspection.hotFiles)

/-- Answer the command `node`. -/
def nodeAnswer (style : Report.Style) (inspection : Inspection n) (number : UInt32) :
    TreeName → ExceptT Failure n String
  | .catalog => do
    nodeReport style Report.catalogRecords (← plainly inspection.catalog) number
  | .extents => do
    nodeReport style Report.overflowRecords (← plainly inspection.extents) number
  | .attributes => do
    nodeReport style Report.attributeRecords (← attributesTree inspection) number
  | .hotFiles => do
    nodeReport style Report.hotFileRecords (← hotFilesTree inspection).1 number

/-- Answer the command `tree-header`. -/
def treeHeaderAnswer (style : Report.Style) (inspection : Inspection n) :
    TreeName → ExceptT Failure n String
  | .catalog => do return treeReport style (← plainly inspection.catalog)
  | .extents => do return treeReport style (← plainly inspection.extents)
  | .attributes => do return treeReport style (← attributesTree inspection)
  | .hotFiles => do
    let (access, info) ← hotFilesTree inspection
    return treeReport style access ++ Report.hotFilesInfo style info

/-- Answer the command `cnid`. -/
def cnidAnswer (style : Report.Style) (inspection : Inspection n) (cnid : UInt32) :
    ExceptT Failure n String := do
  let found ← doing s!"looking up CNID {cnid}" (inspection.lookupCnid cnid)
  let entry ← expect s!"CNID {cnid}: not found" found
  let path ← plainly (inspection.pathOf cnid)
  return Report.entry style entry path

/-- Answer the command `list`. What is no folder is listed itself. -/
def listAnswer (style : Report.Style) (inspection : Inspection n) (path : String) :
    ExceptT Failure n String := do
  let entry ← resolve inspection path
  match entry.record with
  | .folder folder =>
    let items ← plainly (inspection.listFolder folder.folderId none)
    let entries ← doing ("listing " ++ path) (ExceptT.mk (pure (items.mapM id)))
    return Report.listing style entries
  | _ => return Report.listing style [entry]

/-- A piece of a copy that is shorter than this is not written by itself, but when
the copy is over. -/
def writeBuffer : Nat := 8192

/-- Write a chunk of a copy, unless it is held back. -/
def writeChunk (host : Host n) (output : String) (chunk : Bytes) : ExceptT Error n Unit := do
  if writeBuffer ≤ chunk.length then
    match ← host.append output chunk with
    | .ok () => return ()
    | .error reason => throw (.io reason)

/-- The end of a copy that was held back. All chunks but the last have the same size,
which is greater than the buffer. -/
def heldBack (chunkSize : Nat) (bytes : Bytes) : Bytes :=
  let last := bytes.drop (bytes.length / chunkSize * chunkSize)
  if writeBuffer ≤ last.length then [] else last

/-- Write what was held back, if anything was. -/
def writeRest (host : Host n) (output : String) (rest : Bytes) : n (Except String Unit) :=
  if rest.isEmpty then return .ok () else host.append output rest

/-- Answer the command `extract`. The file to write may be the one that is inspected,
which is then emptied before anything is read of the fork. -/
def extractAnswer (session : Session n) (path output : String) (kind : ForkKind) :
    ExceptT Failure n String := do
  let entry ← resolve session.inspection path
  match entry.record with
  | .file file =>
    match ← session.host.create output with
    | .error reason => throw ⟨["creating " ++ output, reason], refusedCode⟩
    | .ok () =>
      let emptied ← session.host.sameFile output session.device
      let inspection ← if emptied then session.loseBytes else pure session.inspection
      let (bytes, outcome) ←
        inspection.copyFork session.hasher file kind (writeChunk session.host output)
      let rest := heldBack inspection.chunkSize bytes
      let flushed ← (writeRest session.host output rest : n (Except String Unit))
      let copy ← doing s!"copying the {kind.label} fork of {path}" (ExceptT.mk (pure outcome))
      match flushed with
      | .error reason => refuse reason
      | .ok () => return s!"{copy.sha256}  {output} ({copy.bytes} bytes)\n"
  | _ => refuse (path ++ ": not a file")

/-- Answer the command `attrs`. -/
def attributesAnswer (style : Report.Style) (inspection : Inspection n) (path : String) :
    ExceptT Failure n String := do
  let entry ← resolve inspection path
  let cnid ← expect (path ++ ": not a file or folder") entry.record.cnid?
  let found ← doing ("reading attributes of " ++ path) (inspection.attributesOf cnid)
  return Report.attributes style found

/-- Answer the command `journal`. -/
def journalAnswer (style : Report.Style) (inspection : Inspection n) :
    ExceptT Failure n String := do
  match ← doing "reading the journal info block" inspection.journalInfo with
  | some info => return Report.journal style info
  | none => return "volume is not journaled\n"

/-- Answer a command on a file system. The partitions are shown of the disk. -/
def commandAnswer (session : Session n) (command : Command) : ExceptT Failure n String :=
  let style := session.style
  let inspection := session.inspection
  match command with
  | .partitions => return Report.partitions style session.disk
  | .header => return Report.volumeHeader style inspection.system
  | .node tree number => nodeAnswer style inspection number tree
  | .treeHeader tree => treeHeaderAnswer style inspection tree
  | .path path => do
    let entry ← resolve inspection path
    return Report.entry style entry path
  | .cnid cnid => cnidAnswer style inspection cnid
  | .list path => listAnswer style inspection path
  | .extract path output kind => extractAnswer session path output kind
  | .attributes path => attributesAnswer style inspection path
  | .summary => do
    let summary ← doing "summarizing the catalog" inspection.summary
    return Report.summary style summary
  | .journal => journalAnswer style inspection

end Commands

/-- Answer a request. The partitions are shown whether or not there is a volume. -/
def Request.answer {m : Type → Type} [Monad m] [Logging m] (host : Host m) (hasher : Hasher)
    (style : Report.Style) (request : Request) : ExceptT Failure m String := do
  let volume ← openDevice host request.device
  let (disk, count) ← doing "reading the partition map" (Disk.loadPartitions ⟨volume, []⟩)
  log (.deviceOpened count request.device)
  if request.command = .partitions then return Report.partitions style disk
  let volume ← chooseVolume disk request.partition
  let mount ← doing "opening the HFS+ volume" volume.mount
  let session : Session (StateT Shelf m) :=
    { host := host.beside Shelf
      style := style
      device := request.device
      disk := disk
      inspection := mount.system.remembering
      hasher := hasher
      loseBytes := mount.system.loseBytes }
  ExceptT.mk (StateT.run' (commandAnswer session request.command).run
    (Shelf.empty request.cacheNodes))

/-- How to write a command line. -/
def helpText : String :=
  "Read-only inspector for HFS+ volumes, partitions and disk images\n\n" ++
  "Usage: " ++ programName ++ " [OPTIONS] <DEVICE> <COMMAND>\n\n" ++
  "Commands:\n" ++
  String.join ((forms.map (fun form => (form.name, form.purpose)) ++
    [(helpWord, "Print this message or the help of the given subcommand(s)")]).map
      fun (name, purpose) => "  " ++ Text.padRight 11 name ++ "  " ++ purpose ++ "\n") ++
  "\nArguments:\n  <DEVICE>  Disk image, partition or device to inspect\n\n" ++
  "Options:\n" ++
  String.join ([("-p, --partition <PARTITION>",
      "Inspect partition N, as numbered by `partitions`, instead of the first one holding HFS+"),
    ("    --cache-nodes <CACHE_NODES>",
      s!"B-tree nodes cached per tree, 0 to disable caching [default: {defaultCacheNodes}]"),
    ("-h, --help", "Print help"), ("-V, --version", "Print version")].map
      fun (option, purpose) => "  " ++ Text.padRight 31 option ++ "  " ++ purpose ++ "\n")

/-- How a run of the program ends. -/
structure Outcome where
  exitCode : Nat
  output : String
  /-- What is shown beside the output, behind the noted events. -/
  complaint : String
  deriving DecidableEq, Repr

/-- Read a command line and answer it. -/
def run {m : Type → Type} [Monad m] [Logging m] (host : Host m) (hasher : Hasher)
    (style : Report.Style) (words : List String) : m Outcome := do
  match Request.ofWords words with
  | .error .help => return ⟨0, helpText, ""⟩
  | .error .version => return ⟨0, programName ++ " " ++ programVersion ++ "\n", ""⟩
  | .error .misuse => return ⟨2, "", helpText⟩
  | .ok request =>
    match ← (request.answer host hasher style).run with
    | .ok output => return ⟨0, output, ""⟩
    | .error failure => return ⟨failure.exitCode, "", failure.line ++ "\n"⟩

end HfsPlus.CommandLine
