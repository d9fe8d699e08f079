import HfsPlus.Proofs.FileSystem.Entries
import HfsPlus.Proofs.Name.Folding

/-!
# Spellings of a path

Where a catalog folds letter case, a path is followed by what its components fold to and by nothing
else. Two paths are `Path.Alike` if they have as many components, and each counts as equal to its
partner. Both lead to the same entry, or neither leads to any, for the same reason. Whether the
catalog is sound does not matter: all that a search ever does with the key that is sought is to
compare it.

A path can be respelled in several ways without a difference: a slash may lead, trail or be doubled,
letters may be written large or small, and characters that do not show may stand beside others. A
component of nothing but these is a component, though, so that they cannot stand by themselves.
-/

namespace HfsPlus

namespace Path

/-- Two paths have as many components, and each counts as equal to its partner when letter case is
folded. -/
def Alike (left right : String) : Prop :=
  List.Forall₂ (fun left right => Name.compareFolding (.ofPosix left) (.ofPosix right) = .eq)
    (components left) (components right)

/-- A character that a folding comparison passes over. -/
def Hidden (char : Char) : Prop :=
  char.toNat < 0x10000 ∧ Name.isIgnorable (UInt16.ofNat char.toNat) = true

/-- One change to the spelling of a path. -/
inductive Respelled : String → String → Prop
  | leading (path : String) : Respelled ("/" ++ path) path
  | trailing (path : String) : Respelled (path ++ "/") path
  | doubled (front back : String) : Respelled (front ++ "//" ++ back) (front ++ "/" ++ back)
  /-- A part of a component is replaced by another that folds to the same. -/
  | folded (front back : String) {part other : String} : '/' ∉ part.toList → '/' ∉ other.toList →
    part ≠ "" → other ≠ "" → Name.compareFolding (.ofPosix part) (.ofPosix other) = .eq →
    Respelled (front ++ part ++ back) (front ++ other ++ back)
  /-- A character that does not show is inserted before or behind another. -/
  | inserted (front back : String) {char hidden : Char} : char ≠ '/' → Hidden hidden →
    Respelled (front ++ String.ofList [hidden, char] ++ back)
      (front ++ String.ofList [char] ++ back)
  | appended (front back : String) {char hidden : Char} : char ≠ '/' → Hidden hidden →
    Respelled (front ++ String.ofList [char, hidden] ++ back)
      (front ++ String.ofList [char] ++ back)

/-- Two pieces of paths are both empty or neither is, and they count as equal. -/
structure Same (left right : List Char) : Prop where
  empty : left = [] ↔ right = []
  equal : Name.compareFolding (.ofPosixCharacters left) (.ofPosixCharacters right) = .eq

/-- A piece counts as equal to itself. -/
theorem Same.refl (piece : List Char) : Same piece piece := ⟨Iff.rfl, Std.ReflCmp.compare_self⟩

/-- The folded units of two pieces that are joined are those of the one and then of the other. -/
theorem foldedShown_append (front back : List Char) :
    (Name.ofPosixCharacters (front ++ back)).foldedShown =
      (Name.ofPosixCharacters front).foldedShown ++ (Name.ofPosixCharacters back).foldedShown := by
  simp [Name.ofPosixCharacters, Name.ofCharacters, Text.Units.encode, Name.foldedShown]

/-- Pieces that are joined of such as count as equal do so. -/
theorem Same.append {left right front other : List Char} (first : Same left right)
    (second : Same front other) : Same (left ++ front) (right ++ other) := by
  constructor
  case empty => rw [List.append_eq_nil_iff, List.append_eq_nil_iff, first.empty, second.empty]
  case equal =>
    rw [Name.compareFolding_eq, foldedShown_append, foldedShown_append,
      (Name.compareFolding_eq _ _).mp first.equal, (Name.compareFolding_eq _ _).mp second.equal]

/-- The pieces that are no components taken away. -/
def proper (pieces : List (List Char)) : List (List Char) :=
  pieces.filter fun piece => !piece.isEmpty

/-- Two paths have first pieces that count as equal, and so do the components among the others, one
by one. -/
def Akin (left right : List Char) : Prop :=
  ∃ first later other others, pieces left = first :: later ∧ pieces right = other :: others ∧
    Same first other ∧ List.Forall₂ Same (proper later) (proper others)

/-- Paths with such components are alike. -/
theorem alike_of_proper {left right : String}
    (same : List.Forall₂ Same (proper (pieces left.toList)) (proper (pieces right.toList))) :
    Alike left right := by
  unfold Alike components
  rw [List.forall₂_map_left_iff, List.forall₂_map_right_iff]
  refine same.imp fun piece other both => ?_
  simpa [Name.ofPosix] using both.equal

section Akin

variable {left right : List Char}

/-- All components of akin paths count as equal one by one, with those of the first pieces if these
are components. -/
theorem Akin.proper (akin : Akin left right) :
    List.Forall₂ Same (proper (pieces left)) (proper (pieces right)) := by
  obtain ⟨first, later, other, others, leftPieces, rightPieces, same, rest⟩ := akin
  rw [leftPieces, rightPieces]
  by_cases empty : first = []
  · obtain rfl := same.empty.mp empty
    subst empty
    exact rest
  · have occupied := mt same.empty.mpr empty
    have leftKept : Path.proper (first :: later) = first :: Path.proper later :=
      List.filter_cons_of_pos (by simpa using empty)
    have rightKept : Path.proper (other :: others) = other :: Path.proper others :=
      List.filter_cons_of_pos (by simpa using occupied)
    rw [leftKept, rightKept]
    exact .cons same rest

/-- The pieces of a path that starts with a slash. -/
theorem pieces_slash (path : List Char) : pieces ('/' :: path) = [] :: pieces path := by
  rw [pieces]
  cases split : pieces path with
  | nil =>
    rw [pieces_eq_splitOn] at split
    exact absurd split (List.splitOn_ne_nil _ _)
  | cons piece later => rfl

/-- Any other character belongs to the first piece. -/
theorem pieces_cons {char : Char} {path piece : List Char} {later : List (List Char)}
    (other : char ≠ '/') (split : pieces path = piece :: later) :
    pieces (char :: path) = (char :: piece) :: later := by
  rw [pieces, split]
  exact if_neg other

/-- So do several. -/
theorem pieces_append {part path piece : List Char} {later : List (List Char)}
    (whole : '/' ∉ part) (split : pieces path = piece :: later) :
    pieces (part ++ path) = (part ++ piece) :: later := by
  induction part with
  | nil => exact split
  | cons char part inductionHypothesis =>
    obtain ⟨other, rest⟩ := List.ne_and_not_mem_of_not_mem_cons whole
    exact pieces_cons other.symm (inductionHypothesis rest)

/-- A path has a first piece. -/
theorem exists_pieces (path : List Char) : ∃ piece later, pieces path = piece :: later :=
  List.exists_cons_of_ne_nil (pieces_eq_splitOn path ▸ List.splitOn_ne_nil _ _)

/-- Akin paths are akin behind any beginning. The induction is on the beginning: its slashes make
components of the pieces behind them, and its other characters join the first of these. -/
theorem Akin.behind (akin : Akin left right) (front : List Char) :
    Akin (front ++ left) (front ++ right) := by
  induction front with
  | nil => exact akin
  | cons char front inductionHypothesis =>
    by_cases slash : char = '/'
    · subst slash
      exact ⟨_, _, _, _, pieces_slash _, pieces_slash _, .refl [], inductionHypothesis.proper⟩
    · obtain ⟨first, later, other, others, leftPieces, rightPieces, same, rest⟩ :=
        inductionHypothesis
      exact ⟨_, _, _, _, pieces_cons slash leftPieces, pieces_cons slash rightPieces,
        (Same.refl [char]).append same, rest⟩

end Akin

/-- A path that counts as equal component by component is alike to itself. -/
theorem forall₂_refl (pieces : List (List Char)) : List.Forall₂ Same pieces pieces :=
  List.forall₂_same.mpr fun piece _ => .refl piece

/-- A character that does not show has no part in what a piece folds to. -/
theorem Hidden.folded {char : Char} (hidden : Hidden char) :
    (Name.ofPosixCharacters [char]).foldedShown = [] := by
  obtain ⟨basic, ignorable⟩ := hidden
  have noColon : char ≠ ':' := by
    rintro rfl
    revert ignorable
    decide
  simp [Name.ofPosixCharacters, Name.ofCharacters, Name.replace, Text.Units.encode,
    Text.Units.ofChar, Name.foldedShown, noColon, basic, ignorable]

/-- It is no slash. -/
theorem Hidden.ne_slash {char : Char} (hidden : Hidden char) : char ≠ '/' := by
  rintro rfl
  exact absurd hidden.2 (by decide)

/-- A part of a component may be replaced by another that folds to the same. -/
theorem alike_of_same (front back : String) {part other : List Char} (whole : '/' ∉ part)
    (alsoWhole : '/' ∉ other) (same : Same part other) :
    Alike (front ++ String.ofList part ++ back) (front ++ String.ofList other ++ back) := by
  obtain ⟨piece, later, split⟩ := exists_pieces back.toList
  have akin : Akin (part ++ back.toList) (other ++ back.toList) :=
    ⟨_, _, _, _, pieces_append whole split, pieces_append alsoWhole split,
      same.append (.refl piece), forall₂_refl _⟩
  refine alike_of_proper ?_
  simpa using (akin.behind front.toList).proper

/-- A hidden character may be put before or behind another. -/
theorem same_of_hidden {char hidden : Char} (passedOver : Hidden hidden) :
    Same [hidden, char] [char] ∧ Same [char, hidden] [char] := by
  constructor <;> refine ⟨by simp, (Name.compareFolding_eq _ _).mpr ?_⟩
  · rw [show [hidden, char] = [hidden] ++ [char] from rfl, foldedShown_append, passedOver.folded,
      List.nil_append]
  · rw [show [char, hidden] = [char] ++ [hidden] from rfl, foldedShown_append, passedOver.folded,
      List.append_nil]

/-- An empty piece is no component. -/
theorem proper_nil_cons (pieces : List (List Char)) : proper ([] :: pieces) = proper pieces := rfl

/-- Paths that differ in their spelling alone are alike. -/
theorem Respelled.alike {left right : String} (respelled : Respelled left right) :
    Alike left right := by
  cases respelled with
  | leading =>
    refine alike_of_proper ?_
    rw [String.toList_append, show "/".toList = ['/'] from rfl, List.singleton_append, pieces_slash,
      proper_nil_cons]
    exact forall₂_refl _
  | trailing =>
    have akin : Akin ['/'] [] := ⟨[], [[]], [], [], rfl, rfl, .refl [], .nil⟩
    refine alike_of_proper ?_
    simpa using (akin.behind right.toList).proper
  | doubled front back =>
    have akin : Akin ('/' :: '/' :: back.toList) ('/' :: back.toList) :=
      ⟨_, _, _, _, pieces_slash _, pieces_slash _, .refl [], by
        rw [pieces_slash, proper_nil_cons]
        exact forall₂_refl _⟩
    refine alike_of_proper ?_
    simpa using (akin.behind front.toList).proper
  | @folded front back part other whole alsoWhole some_ alsoSome equal =>
    have same : Same part.toList other.toList := ⟨by simp [some_, alsoSome], equal⟩
    simpa using alike_of_same front back whole alsoWhole same
  | inserted front back shown hidden =>
    exact alike_of_same front back (by simp [shown.symm, hidden.ne_slash.symm])
      (by simp [shown.symm]) (same_of_hidden hidden).1
  | appended front back shown hidden =>
    exact alike_of_same front back (by simp [shown.symm, hidden.ne_slash.symm])
      (by simp [shown.symm]) (same_of_hidden hidden).2

end Path

namespace Access

variable {catalog : Access Id CatalogKey CatalogRecord}
variable (folding : catalog.tree.schema = Catalog.schema false)
include folding

/-- Components that count as equal one by one lead from an entry to the same. The induction is on
the components; each pair of them finds the same record. -/
theorem follow_congr {lefts rights : List String}
    (alike : List.Forall₂
      (fun left right => Name.compareFolding (.ofPosix left) (.ofPosix right) = .eq) lefts rights)
    (left right : String) (entry : CatalogEntry) :
    (catalog.follow left lefts entry).run = (catalog.follow right rights entry).run := by
  induction alike generalizing entry with
  | nil => rfl
  | @cons component other lefts rights equal _ inductionHypothesis =>
    rw [Access.follow, Access.follow]
    cases entry.record with
    | folder folder =>
      dsimp only
      rw [Catalog.findRecord_congr folding equal, run_bind_direct, run_bind_direct]
      congr 1
      funext found
      cases found with
      | none => rfl
      | some next => exact inductionHypothesis next
    | file => rfl
    | folderThread => rfl
    | fileThread => rfl

/-- Paths that are alike lead from the root folder to the same entry. -/
theorem resolvePath_congr {left right : String} (alike : Path.Alike left right) :
    (catalog.resolvePath left).run = (catalog.resolvePath right).run := by
  rw [Access.resolvePath, Access.resolvePath, run_bind_direct, run_bind_direct]
  congr 1
  funext root
  cases root with
  | none => rfl
  | some root => exact follow_congr folding alike left right root

end Access

namespace FileSystem

variable {system : FileSystem}

/-- A catalog that does not ask for binary comparison, or belongs to a volume of the older kind,
folds letter case. -/
theorem folding_of_catalogTree {tree : Tree CatalogKey CatalogRecord}
    (folding : system.isHfsx = false ∨
      ∀ tree, system.catalogTree = .ok tree → tree.header.keyComparison ≠ .ok .binary)
    (opened : system.catalogTree = .ok tree) : tree.schema = Catalog.schema false := by
  rw [schema_of_catalogTree opened, Catalog.isCaseSensitive]
  rcases folding with older | other
  · rw [older, Bool.false_and]
  · have differs := other tree opened
    cases comparison : tree.header.keyComparison with
    | error cause => simp [Except.toOption]
    | ok order =>
      have notBinary : order ≠ .binary := fun same => differs (same ▸ comparison)
      simp [Except.toOption, beq_eq_false_iff_ne.mpr notBinary]

/-- Without a shelf, paths that are alike have the same answer, be it that the catalog does not
open. -/
theorem direct_resolvePath_congr
    (folding : system.isHfsx = false ∨
      ∀ tree, system.catalogTree = .ok tree → tree.header.keyComparison ≠ .ok .binary)
    {left right : String} (alike : Path.Alike left right) :
    ((system.direct (m := Id)).resolvePath left).run =
      ((system.direct (m := Id)).resolvePath right).run := by
  rw [Inspection.resolvePath, Inspection.resolvePath]
  cases opened : system.catalogTree with
  | ok tree =>
    rw [direct_asked opened, direct_asked opened]
    exact Access.resolvePath_congr (folding_of_catalogTree folding opened) alike
  | error cause =>
    have refused : (system.direct (m := Id)).catalog.run = .error cause := by
      change (Tree.direct <$> system.openCatalog (system.direct (m := Id)).extents :
        ExceptT Error Id _).run = _
      rw [map_eq_pure_bind, run_bind_direct]
      change system.catalogTree.bind _ = _
      rw [opened]
      rfl
    rw [run_bind_direct, run_bind_direct, refused]
    rfl

/-- **The spelling of a path makes no difference where letter case is folded.** On a volume of the
older kind, or one whose catalog does not ask for binary comparison, whatever the catalog holds: two
paths of which the components count as equal one by one get the same answer, an entry with the key
that it is stored under, nothing, or an error. So do paths that were respelled: with a slash in
front, behind, or doubled, with a part of a component replaced by one that folds to the same, such
as letters by those of the other case, and with characters that do not show beside others. Neither
what was asked before makes a difference, nor how many nodes are cached. -/
theorem spelling_unnoticed
    (folding : system.isHfsx = false ∨
      ∀ tree, system.catalogTree = .ok tree → tree.header.keyComparison ≠ .ok .binary) :
    (∀ left right, Path.Respelled left right → Path.Alike left right) ∧
    ∀ left right, Path.Alike left right →
      ∀ (capacity otherCapacity : Nat) (queries otherQueries : List Query),
        let inspection := system.remembering (m := Id)
        let history := ((inspection.answers queries).run (.empty capacity)).2
        let otherHistory := ((inspection.answers otherQueries).run (.empty otherCapacity)).2
        ((inspection.resolvePath left).run.run history).1 =
          ((inspection.resolvePath right).run.run otherHistory).1 := by
  refine ⟨fun left right => Path.Respelled.alike, ?_⟩
  intro left right alike capacity otherCapacity queries otherQueries inspection history otherHistory
  have same := system.remembering_direct
  have faithful : history.Faithful system :=
    (system.replies_of_faithful (Shelf.faithful_empty system capacity) queries).2
  have otherFaithful : otherHistory.Faithful system :=
    (system.replies_of_faithful (Shelf.faithful_empty system otherCapacity) otherQueries).2
  calc ((inspection.resolvePath left).run.run history).1
    _ = ((system.direct (m := Id)).resolvePath left).run :=
      (system.faithfully.holds_run (same.resolvePath left) history faithful).1
    _ = ((system.direct (m := Id)).resolvePath right).run := direct_resolvePath_congr folding alike
    _ = ((inspection.resolvePath right).run.run otherHistory).1 :=
      (system.faithfully.holds_run (same.resolvePath right) otherHistory otherFaithful).1.symm

/-- The path of the file in the sample has another spelling: with large letters, slashes around and
between the components, and a joiner before the last of them. -/
theorem spelling_unnoticed_sample :
    Path.Alike "//A:B/\u200DX/" "/a:b/x" ∧
      (((sample.remembering (m := Id)).resolvePath "//A:B/\u200DX/").run.run (.empty 0)).1 =
        .ok (some ⟨⟨16, .ofText "x"⟩, .file (sampleFile 17)⟩) := by
  have spelled : Path.components "//A:B/\u200DX/" = ["A:B", "\u200DX"] := by decide +kernel
  have plain : Path.components "/a:b/x" = ["a:b", "x"] := by decide +kernel
  have alike : Path.Alike "//A:B/\u200DX/" "/a:b/x" := by
    rw [Path.Alike, spelled, plain]
    exact .cons (by decide +kernel) (.cons (by decide +kernel) .nil)
  have reached : (((sample.remembering (m := Id)).resolvePath "/a:b/x").run.run (.empty 0)).1 =
      .ok (some ⟨⟨16, .ofText "x"⟩, .file (sampleFile 17)⟩) := by decide +kernel
  have older : sample.isHfsx = false := by decide
  have same := (spelling_unnoticed (.inl older)).2 _ _ alike 0 0 [] []
  exact ⟨alike, same.trans reached⟩

end FileSystem

end HfsPlus
