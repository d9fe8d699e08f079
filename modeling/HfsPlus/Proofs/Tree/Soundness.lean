import HfsPlus.Proofs.Record.Order
import HfsPlus.Proofs.Tree.Lookup
import HfsPlus.Proofs.Tree.Session

/-!
# Searches are sound in every tree

A search trusts nothing that a tree says of itself. Keys may be out of order, entries may
name any node as their child, and nodes may lead back to where the search came from: what
a search reports of the neighbours of a place was compared there and then, the leaf it
ends in was verified, and it asks for no more nodes than the tree is deep, and one.

So the record of one key is never taken for that of another. In particular no fork is ever
given the overflow record of another fork, or one that belongs at another block.
-/

namespace HfsPlus

open HfsPlus.Tree (Request)

variable {Key Value : Type}

namespace Access

variable {m : Type → Type} [Monad m]

/-- Get nodes in the same way, and note the number of each that is asked for, the last
first. -/
def noting (access : Access m Key Value) : Access (StateT (List UInt32) m) Key Value where
  tree := access.tree
  node verified number := do
    modifyThe (List UInt32) (number :: ·)
    ExceptT.mk (StateT.lift (access.node verified number).run)

end Access

section Noting

variable {M N : Type → Type} [Monad M] [Monad N] [Logging M] [Logging N]
variable [LawfulMonad M] [LawfulMonad N] {agreement : Agreement M N}
variable {left : Access M Key Value} {right : Access N Key Value}

/-- Agreeing nodes are asked for under the same numbers. -/
theorem Agreement.Accesses.noting (same : agreement.Accesses left right) :
    (agreement.stateT (List UInt32)).Accesses left.noting right.noting where
  tree := same.tree
  node verified number noted := by
    let base := agreement.stateT (List UInt32)
    have marked : base.holds Eq (modifyThe (List UInt32) (number :: ·) : StateT _ M PUnit)
        (modifyThe (List UInt32) (number :: ·)) := fun _ => agreement.holds_pure ⟨rfl, rfl⟩
    have lifted : base.holds Eq (StateT.lift (left.node verified number).run)
        (StateT.lift (right.node verified number).run) := fun noted =>
      agreement.holds_next (agreement.holds_run (same.node verified number)) fun _ =>
        agreement.holds_pure ⟨rfl, rfl⟩
    exact (base.exceptT Error).holds_next (base.holds_lift marked) (fun _ => base.holds_mk lifted) noted

end Noting

/-- However it ends, a computation notes no more numbers than a bound. -/
def Notes {α : Type} (action : ExceptT Error (StateT (List UInt32) Id) α) (bound : Nat) : Prop :=
  ∀ noted, (action.run.run noted).2.length ≤ noted.length + bound

/-- What follows a computation adds to the numbers that were noted. -/
theorem Notes.bind {α β : Type} {action : ExceptT Error (StateT (List UInt32) Id) α}
    {next : α → ExceptT Error (StateT (List UInt32) Id) β} {first rest : Nat}
    (notes : Notes action first) (follow : ∀ value, Notes (next value) rest) :
    Notes (action >>= next) (first + rest) := by
  intro noted
  have start := notes noted
  rw [run_bind]
  generalize action.run.run noted = ended at start ⊢
  rcases ended with ⟨cause | value, after⟩
  · exact Nat.le_trans start (Nat.add_le_add_left (Nat.le_add_right first rest) _)
  · calc ((next value).run.run after).2.length
      _ ≤ after.length + rest := follow value after
      _ ≤ noted.length + first + rest := Nat.add_le_add_right start rest
      _ = noted.length + (first + rest) := Nat.add_assoc ..

/-- An outcome that was known beforehand notes nothing. -/
theorem notes_known {α : Type} (outcome : Except Error α) (bound : Nat) :
    Notes (ExceptT.mk (pure outcome)) bound := fun _ => Nat.le_add_right _ _

/-- After an outcome that was known beforehand only what follows is noted. -/
theorem notes_known_bind {α β : Type} (outcome : Except Error α) {bound : Nat}
    {next : α → ExceptT Error (StateT (List UInt32) Id) β}
    (follow : ∀ value, Notes (next value) bound) :
    Notes ((liftM outcome : ExceptT Error (StateT (List UInt32) Id) α) >>= next) bound :=
  Nat.zero_add bound ▸ Notes.bind (notes_known outcome 0) follow

namespace Tree

variable (tree : Tree Key Value)

section Reads

/-- Asking for a node notes its number. -/
theorem notes_node (verified : Bool) (number : UInt32) :
    Notes ((tree.direct (m := Id)).noting.node verified number) 1 := fun _ => Nat.le_refl _

/-- A descent asks for no more nodes than it may. Induct over the levels that are left. -/
theorem notes_descend (key : Key) (levels : Nat) (number : UInt32) :
    Notes ((tree.direct (m := Id)).noting.descend key levels number) levels := by
  induction levels generalizing number with
  | zero => exact notes_known _ _
  | succ levels inductionHypothesis =>
    rw [Access.descend, Nat.add_comm]
    refine (notes_node tree true number).bind fun node => ?_
    split
    · exact notes_known_bind _ fun _ => notes_known _ _
    · split
      · exact notes_known (.error _) _
      · exact notes_known_bind _ fun _ => notes_known_bind _ fun entry => inductionHypothesis entry.2
    · exact notes_known _ _

/-- A search asks for at most one node more than the tree is deep. -/
theorem notes_search (key : Key) :
    Notes ((tree.direct (m := Id)).noting.search key) (tree.header.treeDepth.toNat + 1) := by
  rw [Access.search]
  split
  · exact notes_known _ _
  · exact notes_descend tree key _ _

/-- Noting numbers changes no answers. -/
theorem noting_direct : (Agreement.ofInvariant fun _ => True).Accesses
    (tree.direct (m := Id)).noting (tree.direct (m := Id)) where
  tree := rfl
  node verified number _ _ :=
    ⟨Agreement.outcomes_same ((tree.direct (m := Id)).node verified number).run, trivial⟩

end Reads

/-- What a bisection says of a key among the keys of a node, in whatever order they are:
an equal one is at the index, or else a smaller one is right before it and a greater one
at it, as far as there are any. -/
structure Flanked (node : Node) (key : Key) (index : Nat) (found : Bool) : Prop where
  within : index ≤ node.count
  equal : found = true → index < node.count ∧
    ∃ other, tree.keyAt node index = .ok other ∧ tree.schema.compare other key = .eq
  smaller : found = false → 0 < index →
    ∃ other, tree.keyAt node (index - 1) = .ok other ∧ tree.schema.compare other key = .lt
  greater : found = false → index < node.count →
    ∃ other, tree.keyAt node index = .ok other ∧ tree.schema.compare other key = .gt

/-- What a search may report of a key: that the tree is empty by its own account, or a
place in a verified leaf together with what is compared there. -/
inductive Lands (key : Key) : SearchResult → Prop where
  | nowhere (empty : tree.header.leafRecords = 0 ∨ tree.header.rootNode = 0) :
      Lands key ⟨none, false⟩
  | leaf {position : Position} {found : Bool} {leaf : Node}
      (stored : tree.stored position.node = .ok leaf) (kind : leaf.kind = .leaf)
      (flanked : tree.Flanked leaf key position.index found) : Lands key ⟨some position, found⟩

/-- A verified leaf of the tree has a record. -/
def Stores (record : Key × Value) : Prop :=
  ∃ number leaf index, tree.stored number = .ok leaf ∧ leaf.kind = .leaf ∧
    index < leaf.count ∧ tree.leafRecord leaf index = .ok record

variable {tree}

/-- One step of a bisection that succeeds has read the key in the middle. -/
theorem keyAt_of_bisect {node : Node} {key : Key} {low high : Nat} {result : Nat × Bool}
    (wide : low < high) (bisected : tree.bisect node key low high = .ok result) :
    ∃ middleKey, tree.keyAt node (low + (high - low) / 2) = .ok middleKey := by
  rw [Tree.bisect, if_pos wide] at bisected
  obtain ⟨middleKey, read, _⟩ := bind_eq_ok.mp bisected
  exact ⟨middleKey, read⟩

/-- A bisection compares what it reports. Its ends move only to where a key was compared:
the key before the lower end is smaller than the one sought, unless the end has not moved
yet, and the key at the upper end is greater. The induction follows the bisection. -/
theorem flanked_of_bisect {node : Node} {key : Key} {low high index : Nat} {found : Bool}
    (bisected : tree.bisect node key low high = .ok (index, found)) (ordered : low ≤ high)
    (within : high ≤ node.count)
    (smaller : 0 < low →
      ∃ other, tree.keyAt node (low - 1) = .ok other ∧ tree.schema.compare other key = .lt)
    (greater : high < node.count →
      ∃ other, tree.keyAt node high = .ok other ∧ tree.schema.compare other key = .gt) :
    tree.Flanked node key index found := by
  induction low, high using Tree.bisect.induct with
  | case1 low high wide middle below above =>
    obtain ⟨middleKey, read⟩ := keyAt_of_bisect wide bisected
    rw [bisect_step wide rfl read] at bisected
    cases order : tree.schema.compare middleKey key with
    | lt =>
      rw [order] at bisected
      exact below bisected (by omega) within (fun _ => ⟨middleKey, read, order⟩) greater
    | eq =>
      rw [order] at bisected
      obtain ⟨⟩ := bisected
      have inside : middle < node.count := by omega
      exact ⟨Nat.le_of_lt inside, fun _ => ⟨inside, middleKey, read, order⟩, by simp, by simp⟩
    | gt =>
      rw [order] at bisected
      exact above bisected (by omega) (by omega) smaller fun _ => ⟨middleKey, read, order⟩
  | case2 low high closed =>
    rw [Tree.bisect, if_neg closed] at bisected
    obtain ⟨⟩ := bisected
    obtain rfl : index = high := by omega
    exact ⟨within, by simp, fun _ => smaller, fun _ => greater⟩

/-- What is found by bisecting a whole node was compared. -/
theorem flanked_of_scan {node : Node} {key : Key} {index : Nat} {found : Bool}
    (scanned : tree.scan node key = .ok (index, found)) : tree.Flanked node key index found :=
  flanked_of_bisect scanned (Nat.zero_le _) (Nat.le_refl _) nofun fun beyond =>
    absurd beyond (Nat.lt_irrefl _)

/-- A descent that succeeds lands in a leaf. Induct over the levels that are left; where
an index node leads does not matter. -/
theorem lands_of_descend {key : Key} {levels : Nat} {number : UInt32} {result : SearchResult}
    (descended : ((tree.direct (m := Id)).descend key levels number).run = .ok result) :
    tree.Lands key result := by
  induction levels generalizing number with
  | zero => cases descended
  | succ levels inductionHypothesis =>
    rw [Access.descend, run_bind_eq_ok] at descended
    obtain ⟨node, stored, descended⟩ := descended
    rw [direct_node, if_pos rfl] at stored
    split at descended
    · rename_i kind
      obtain ⟨⟨index, found⟩, scanned, ⟨⟩⟩ := run_bind_eq_ok.mp descended
      exact .leaf stored kind (flanked_of_scan scanned)
    · split at descended
      · cases descended
      · obtain ⟨⟨index, found⟩, _, descended⟩ := run_bind_eq_ok.mp descended
        obtain ⟨⟨_, child⟩, _, descended⟩ := run_bind_eq_ok.mp descended
        exact inductionHypothesis descended
    · cases descended

/-- A search that succeeds lands in a leaf, unless the tree calls itself empty. -/
theorem lands_of_search {key : Key} {result : SearchResult}
    (searched : ((tree.direct (m := Id)).search key).run = .ok result) :
    tree.Lands key result := by
  unfold Access.search at searched
  split at searched
  · rename_i empty
    obtain ⟨⟩ := searched
    exact .nowhere (by simpa [Tree.isEmpty, Tree.direct] using empty)
  · exact lands_of_descend searched

/-- What is found for a key is stored in the tree, under an equal key. -/
theorem stores_of_find {key : Key} {record : Key × Value}
    (found : ((tree.direct (m := Id)).find key).run = .ok (some record)) :
    tree.Stores record ∧ tree.schema.compare record.1 key = .eq := by
  obtain ⟨result, searched, found⟩ := run_bind_eq_ok.mp found
  cases lands_of_search searched with
  | nowhere empty => cases found
  | @leaf position hit leaf stored kind flanked =>
    cases hit with
    | false => cases found
    | true =>
      obtain ⟨node, again, read⟩ := run_bind_eq_ok.mp found
      rw [direct_node, if_pos rfl, stored] at again
      obtain ⟨⟩ := again
      obtain ⟨_, read, ⟨⟩⟩ := run_bind_eq_ok.mp read
      obtain ⟨inside, other, sameKey, equal⟩ := flanked.equal rfl
      obtain ⟨⟩ := sameKey.symm.trans (keyAt_of_leafRecord read)
      exact ⟨⟨_, leaf, _, stored, kind, inside, read⟩, equal⟩

section Equal

variable [Std.TransCmp tree.schema.compare] {left right : Key}
variable (equal : tree.schema.compare left right = .eq)
include equal

/-- Keys that count as equal are bisected for alike. -/
theorem bisect_congr (node : Node) (low high : Nat) :
    tree.bisect node left low high = tree.bisect node right low high := by
  induction low, high using Tree.bisect.induct with
  | case1 low high wide middle below above =>
    rw [Tree.bisect, Tree.bisect, if_pos wide, if_pos wide]
    refine bind_congr fun middleKey => ?_
    rw [Std.TransCmp.congr_right equal, below, above]
  | case2 low high closed => rw [Tree.bisect, Tree.bisect, if_neg closed, if_neg closed]

/-- They are found alike, too: the way down is decided by bisecting. -/
theorem find_congr {m : Type → Type} [Monad m] {access : Access m Key Value}
    (same : access.tree = tree) : access.find left = access.find right := by
  subst same
  have descended (levels : Nat) (number : UInt32) :
      access.descend left levels number = access.descend right levels number := by
    induction levels generalizing number with
    | zero => rfl
    | succ levels inductionHypothesis =>
      simp only [Access.descend, Tree.scan, bisect_congr equal, inductionHypothesis]
  simp only [Access.find, Access.search, descended]

end Equal

variable (tree)

/-- After any requests, through any cache, a search asks for no more nodes than the tree is
deep, and one, and a search that succeeds lands in a leaf. -/
theorem search_kept {cache : RecencyCache Node} (kept : tree.Keeps cache) (key : Key) :
    let access := tree.cached (m := Id)
    let noted := (((access.noting.search key).run.run []).run cache).1
    noted.1 = ((access.search key).run.run cache).1 ∧
      noted.2.length ≤ tree.header.treeDepth.toNat + 1 ∧
      ∀ result, noted.1 = .ok result → tree.Lands key result := by
  intro access noted
  have searched := (Agreement.ofInvariant tree.Keeps).holds_run (tree.cached_direct.search key)
  have both := ((Agreement.ofInvariant tree.Keeps).stateT (List UInt32)).holds_run
    (tree.cached_direct.noting.search key)
  have alone := (Agreement.ofInvariant fun _ => True).holds_run (tree.noting_direct.search key)
  obtain ⟨⟨answer, numbers⟩, -⟩ := both [] cache kept
  have direct : noted.1 = ((tree.direct (m := Id)).search key).run :=
    answer.trans (alone [] trivial).1
  refine ⟨direct.trans (searched cache kept).1.symm, ?_, ?_⟩
  · have few := notes_search tree key []
    rw [List.length_nil, Nat.zero_add] at few
    exact numbers ▸ few
  · intro result found
    exact lands_of_search (direct.symm.trans found)

/-- After any requests, through any cache, what is found for a key is stored under an equal
key. -/
theorem find_kept {cache : RecencyCache Node} (kept : tree.Keeps cache) {key : Key}
    {record : Key × Value}
    (found : (((tree.cached (m := Id)).find key).run.run cache).1 = .ok (some record)) :
    tree.Stores record ∧ tree.schema.compare record.1 key = .eq := by
  have same := (Agreement.ofInvariant tree.Keeps).holds_run (tree.cached_direct.find key) cache kept
  exact stores_of_find (same.1.symm.trans found)

end Tree

/-- After any requests, through any cache, what is given to a fork is stored for that fork
and that block. -/
theorem Tree.overflow_kept {tree : Tree ExtentKey ExtentRecord} (schema : tree.schema = overflowSchema)
    {cache : RecencyCache Node} (kept : tree.Keeps cache) {fileId startBlock : UInt32}
    {kind : ForkKind} {record : ExtentRecord}
    (given : (((tree.cached (m := Id)).overflowSource fileId kind startBlock).run.run cache).1 =
      .ok (some record)) :
    tree.Stores (⟨kind, fileId, startBlock⟩, record) := by
  rw [Access.overflowSource, run_bind] at given
  generalize ended : ((tree.cached (m := Id)).find _).run.run cache = outcome at given
  rcases outcome with ⟨cause | _ | ⟨key, value⟩, after⟩
  · cases given
  · cases given
  · obtain ⟨⟩ := given
    obtain ⟨stores, equal⟩ := tree.find_kept kept (congrArg Prod.fst ended)
    rw [schema] at equal
    exact ExtentKey.eq_of_compare equal ▸ stores

/-- **Searches are sound in every tree**, whatever its bytes are, after any requests and
with any number of nodes cached. A search asks for at most one node more than the tree says
it is deep. It says that there is no place only if the tree says that it is empty; else its
place is in a verified leaf and at most behind the last record, an equal key is there if one
was found, and if not the key before the place is smaller and the key at the place greater.
So only records under an equal key are ever found, and a fork is only given overflow records
that are stored for this fork and the very block that was asked for. -/
theorem Tree.search_sound :
    (∀ {Key Value : Type} (tree : Tree Key Value) (capacity : Nat) (requests : List (Request Key))
        (key : Key),
      let access := tree.cached (m := Id)
      let history := ((access.replies [] requests).run (.empty capacity)).2
      let noted := (((access.noting.search key).run.run []).run history).1
      noted.1 = ((access.search key).run.run history).1 ∧
        noted.2.length ≤ tree.header.treeDepth.toNat + 1 ∧
        (∀ result, noted.1 = .ok result → tree.Lands key result) ∧
        ∀ record, ((access.find key).run.run history).1 = .ok (some record) →
          tree.Stores record ∧ tree.schema.compare record.1 key = .eq) ∧
    ∀ (tree : Tree ExtentKey ExtentRecord) (capacity : Nat) (requests : List (Request ExtentKey))
        (fileId : UInt32) (kind : ForkKind) (startBlock : UInt32) (record : ExtentRecord),
      let access := ({ tree with schema := overflowSchema } : Tree _ _).cached (m := Id)
      let history := ((access.replies [] requests).run (.empty capacity)).2
      ((access.overflowSource fileId kind startBlock).run.run history).1 = .ok (some record) →
        access.tree.Stores (⟨kind, fileId, startBlock⟩, record) := by
  constructor
  · intro Key Value tree capacity requests key access history
    have kept : tree.Keeps history := ((tree.keeps_empty capacity).replies tree [] requests).2
    obtain ⟨same, few, lands⟩ := tree.search_kept kept key
    exact ⟨same, few, lands, fun record => tree.find_kept kept⟩
  · intro tree capacity requests fileId kind startBlock record access history found
    exact Tree.overflow_kept rfl (((access.tree.keeps_empty capacity).replies _ [] requests).2) found

namespace Tree

section Sample

/-! A tree whose root is among its own children, and whose only leaf is out of order. -/

/-- An unused node, the root, and the leaf. -/
def tangledImage : Bytes :=
  List.replicate 512 0 ++
    nodeBytes 512 0 0 2 [[1, 10, 0, 0, 0, 1], [1, 20, 0, 0, 0, 2]] ++
    nodeBytes 512 0 255 1 [[1, 30, 7, 7], [1, 20, 8, 8], [1, 10, 6, 6]]

/-- The tree. -/
def tangled : Tree UInt8 Bytes :=
  { sample with
    stream :=
      { window := ⟨some 1536, fun offset wanted => .ok ((tangledImage.drop offset).take wanted)⟩
        fork := ⟨16, .data, 1536, 1, 1536, [⟨0, 0, 1⟩], 0⟩ }
    header := { sample.header with leafRecords := 3, firstLeafNode := 2, lastLeafNode := 2,
                                   totalNodes := 3 } }

/-- The search that goes round in circles ends, and the record that is found is the right
one. -/
theorem search_sound_tangled :
    let access := tangled.cached (m := Id)
    (((access.noting.search 10).run.run []).run (.empty 1)).1.2 = [1, 1, 1] ∧
      [1, 1, 1].length ≤ tangled.header.treeDepth.toNat + 1 ∧
      ((access.find 20).run.run (.empty 1)).1 = .ok (some (20, [8, 8])) ∧
      tangled.Stores (20, [8, 8]) := by
  intro access
  have circles : (((access.noting.search 10).run.run []).run (.empty 1)).1.2 = [1, 1, 1] := by
    decide +kernel
  have found : ((access.find 20).run.run (.empty 1)).1 = .ok (some (20, [8, 8])) :=
    by decide +kernel
  have few : (((access.noting.search 10).run.run []).run (.empty 1)).1.2.length ≤ _ :=
    (search_sound.1 tangled 1 [] 10).2.1
  have stores := ((search_sound.1 tangled 1 [] 20).2.2.2 _ found).1
  rw [circles] at few
  exact ⟨circles, few, found, stores⟩

end Sample

end Tree

end HfsPlus
