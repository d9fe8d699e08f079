import HfsPlus.Error

/-!
# What an inspection notes on its way

An inspection notes events while it works: volumes opened, nodes read, records
given up. Events do not influence what is answered. Code that may note events is
written for any monad with an instance of `Logging`; in `Id` events vanish, which
is the setting in which answers are reasoned about, and in `Recorded` they are
kept in order for the command line to show.
-/

namespace HfsPlus

/-- How much an event matters, least first. -/
inductive Level where
  | trace
  | debug
  | warn
  deriving DecidableEq, Repr

/-- The place of a level in the order. -/
def Level.rank : Level → Nat
  | trace => 0
  | debug => 1
  | warn => 2

/-- The name of a level at the start of a line. -/
def Level.label : Level → String
  | trace => "TRACE"
  | debug => "DEBUG"
  | warn => "WARN"

/-- Everything that may be noted. -/
inductive Event where
  | fileOpened (path : String) (length sectorSize : Nat)
  | volumeRead (offset wanted done : Nat)
  | tableBeyondDisk (block : Nat)
  | entryOutsideDisk (index first last : Nat)
  | mapFound (scheme : String) (count : Nat)
  | partitionSelected (offset : Nat) (kind : String)
  | openRetried (cause : Error) (path : String)
  | deviceOpened (partitions : Nat) (path : String)
  | wrapperFound (name : String) (offset length : Nat)
  | volumeOpened (signature : VolumeSignature) (version : UInt16)
      (blockSize totalBlocks files folders : UInt32)
  | noAttributes
  | forkCopied (file : UInt32) (fork : ForkKind) (bytes overflowRecords : Nat)
  | noOverflowRecord (file : UInt32) (fork : ForkKind) (startBlock totalBlocks : Nat)
  | overflowLoaded (file : UInt32) (fork : ForkKind) (startBlock mapped : Nat)
  | cacheLookup (key : Nat) (hit : Bool)
  | cacheEviction (key : Nat)
  | nodeRead (tree : String) (node : UInt32) (kind : NodeKind)
  | damagedNode (tree : String) (node : UInt32) (cause : Error)
  | nodesBeyondFork (tree : String) (totalNodes : UInt32) (forkSize : Nat)
  | treeOpened (tree : String) (nodeSize depth : UInt16)
      (root leafRecords totalNodes : UInt32)
  | unknownKeyComparison (code : UInt8)
  | pathBeyondFile (path component : String)
  | unresolvableFork (file : UInt32) (fork : ForkKind) (cause : Error)
  | damagedRecord (node : UInt32) (record : Nat) (cause : Error)
  | walkStopped (cause : Error)
  deriving DecidableEq, Repr

namespace Event

/-- How much an event matters. -/
def level : Event → Level
  | nodesBeyondFork .. | wrapperFound .. | walkStopped .. | openRetried .. => .warn
  | volumeRead .. | cacheLookup .. | cacheEviction .. | nodeRead .. | overflowLoaded ..
  | pathBeyondFile .. => .trace
  | _ => .debug

/-- The part of the program that notes the event. -/
def origin : Event → String
  | fileOpened .. | volumeRead .. => "hfsinspect::volume"
  | tableBeyondDisk .. | entryOutsideDisk .. | mapFound .. | partitionSelected .. =>
    "hfsinspect::partition"
  | openRetried .. | deviceOpened .. => "hfsinspect"
  | wrapperFound .. | volumeOpened .. | noAttributes | forkCopied .. => "hfsinspect::hfs"
  | noOverflowRecord .. | overflowLoaded .. => "hfsinspect::fork"
  | cacheLookup .. | cacheEviction .. => "hfsinspect::cache"
  | nodeRead .. | damagedNode .. | nodesBeyondFork .. | treeOpened .. => "hfsinspect::btree"
  | unknownKeyComparison .. => "hfsinspect::trees::catalog"
  | pathBeyondFile .. => "hfsinspect::walker"
  | unresolvableFork .. | damagedRecord .. | walkStopped .. => "hfsinspect::summary"

/-- What happened, in words. -/
def message : Event → String
  | fileOpened .. => "opened volume"
  | volumeRead .. => "volume read"
  | tableBeyondDisk .. => "GPT entry array lies beyond any disk"
  | entryOutsideDisk .. => "skipping GPT entry outside the disk"
  | mapFound .. => "found partition map"
  | partitionSelected .. => "selected HFS partition"
  | openRetried .. => "open failed, trying the raw device"
  | deviceOpened .. => "opened device"
  | wrapperFound .. => "HFS+ volume is wrapped in classic HFS"
  | volumeOpened .. => "opened HFS+ volume"
  | noAttributes => "volume has no attributes file"
  | forkCopied .. => "copied fork"
  | noOverflowRecord .. => "no overflow record for unmapped blocks"
  | overflowLoaded .. => "loaded overflow extents"
  | cacheLookup .. => "node cache lookup"
  | cacheEviction .. => "node cache eviction"
  | nodeRead .. => "read node"
  | damagedNode .. => "handing out damaged node"
  | nodesBeyondFork .. => "B-tree claims more nodes than its fork holds"
  | treeOpened .. => "opened B-tree"
  | unknownKeyComparison .. => "unknown catalog key compare type, folding case"
  | pathBeyondFile .. => "path continues past a file"
  | unresolvableFork .. => "unresolvable fork"
  | damagedRecord .. => "skipping damaged record"
  | walkStopped .. => "catalog walk stopped early, summary is partial"

/-- What the event is about, in order, as name and value. -/
def details : Event → List (String × String)
  | fileOpened path length sectorSize =>
    [("path", path), ("len", toString length), ("sector_size", toString sectorSize)]
  | volumeRead offset wanted done =>
    [("offset", toString offset), ("wanted", toString wanted), ("done", toString done)]
  | tableBeyondDisk block => [("lba", toString block)]
  | entryOutsideDisk index first last =>
    [("index", toString index), ("first", toString first), ("last", toString last)]
  | mapFound scheme count => [("scheme", scheme), ("count", toString count)]
  | partitionSelected offset kind => [("offset", toString offset), ("kind", kind)]
  | openRetried cause path => [("err", cause.message), ("retry", path)]
  | deviceOpened partitions path => [("partitions", toString partitions), ("device", path)]
  | wrapperFound name offset length =>
    [("name", name), ("offset", toString offset), ("length", toString length)]
  | volumeOpened signature version blockSize totalBlocks files folders =>
    [("signature", Coded.title signature), ("version", toString version),
      ("block_size", toString blockSize), ("total_blocks", toString totalBlocks),
      ("files", toString files), ("folders", toString folders)]
  | noAttributes => []
  | forkCopied file fork bytes overflowRecords =>
    [("file_id", toString file), ("fork", fork.label), ("bytes", toString bytes),
      ("overflow_records", toString overflowRecords)]
  | noOverflowRecord file fork startBlock totalBlocks =>
    [("file_id", toString file), ("fork", fork.label), ("start_block", toString startBlock),
      ("total_blocks", toString totalBlocks)]
  | overflowLoaded file fork startBlock mapped =>
    [("file_id", toString file), ("fork", fork.label), ("start_block", toString startBlock),
      ("mapped", toString mapped)]
  | cacheLookup key hit => [("key", toString key), ("hit", toString hit)]
  | cacheEviction key => [("evicted", toString key)]
  | nodeRead tree node kind =>
    [("tree", Text.quoted tree), ("node", toString node), ("kind", kind.label)]
  | damagedNode tree node cause =>
    [("tree", Text.quoted tree), ("node", toString node), ("err", cause.message)]
  | nodesBeyondFork tree totalNodes forkSize =>
    [("tree", Text.quoted tree), ("total_nodes", toString totalNodes),
      ("fork_size", toString forkSize)]
  | treeOpened tree nodeSize depth root leafRecords totalNodes =>
    [("tree", Text.quoted tree), ("node_size", toString nodeSize), ("depth", toString depth),
      ("root", toString root), ("leaf_records", toString leafRecords),
      ("total_nodes", toString totalNodes)]
  | unknownKeyComparison code => [("key_compare_type", toString code)]
  | pathBeyondFile path component =>
    [("path", Text.quoted path), ("component", Text.quoted component)]
  | unresolvableFork file fork cause =>
    [("file_id", toString file), ("fork", fork.label), ("err", cause.message)]
  | damagedRecord node record cause =>
    [("node", toString node), ("index", toString record), ("err", cause.message)]
  | walkStopped cause => [("err", cause.message)]

/-- An event on a line of its own. -/
def line (event : Event) : String :=
  event.level.label ++ " " ++ event.origin ++ ": " ++ event.message ++
    String.join (event.details.map fun (name, value) => " " ++ name ++ "=" ++ value)

end Event

/-- A monad in which events can be noted. -/
class Logging (m : Type → Type) where
  log : Event → m Unit

export Logging (log)

/-- Without a place to keep them, events vanish. -/
instance : Logging Id := ⟨fun _ => pure ()⟩

instance {σ : Type} {m : Type → Type} [Monad m] [Logging m] : Logging (StateT σ m) :=
  ⟨fun event => StateT.lift (log event)⟩

instance {ε : Type} {m : Type → Type} [Monad m] [Logging m] : Logging (ExceptT ε m) :=
  ⟨fun event => ExceptT.lift (log event)⟩

/-- A computation that keeps the events it notes, in order. -/
def Recorded (α : Type) : Type := StateM (Array Event) α

namespace Recorded

instance : Monad Recorded := inferInstanceAs (Monad (StateM (Array Event)))

instance : Logging Recorded :=
  ⟨fun event => show StateM (Array Event) Unit from modify (·.push event)⟩

/-- The outcome of a computation and all its events. -/
def run {α : Type} (computation : Recorded α) : α × Array Event :=
  (StateT.run (m := Id) (show StateM (Array Event) α from computation) #[])

end Recorded

end HfsPlus
