import HfsPlus.FileSystem.Catalog
import HfsPlus.Proofs.Text.Units

/-!
# Names in paths

A name that has some units, no lone surrogate among them and no colon, can be a component
of a path, `Name.Spellable`: written with its slashes as colons, it holds no slash, and
reading the component gives the name back. Of all names, whatever their units are, these
and the empty one are those that come back. Joining such components behind a slash each
gives a path that falls into just these components.
-/

namespace HfsPlus

namespace Name

/-- A name comes back from the component of a path that it is written as. -/
structure Spellable (name : Name) : Prop where
  nonempty : name.units ≠ []
  paired : Text.Units.Paired name.units
  withoutColon : (0x3A : UInt16) ∉ name.units

/-- Where a character does not occur yet, another that it took the place of comes back. -/
theorem replace_replace {old new char : Char} (other : char ≠ new) :
    replace new old (replace old new char) = char := by
  by_cases replaced : char = old
  · subst replaced
    simp [replace]
  · have kept : replace old new char = char := if_neg replaced
    rw [kept]
    exact if_neg other

/-- So does a text. -/
theorem map_replace_replace {old new : Char} {text : List Char} (without : new ∉ text) :
    (text.map (replace old new)).map (replace new old) = text := by
  rw [List.map_map]
  refine (List.map_congr_left fun char member => replace_replace ?_).trans (List.map_id _)
  rintro rfl
  exact without member

/-- Nothing is left of a character that another took the place of. -/
theorem not_mem_map_replace {old new : Char} (apart : new ≠ old) (text : List Char) :
    old ∉ text.map (replace old new) := by
  intro member
  obtain ⟨char, _, same⟩ := List.mem_map.mp member
  unfold replace at same
  split at same
  · exact apart same
  · contradiction

/-- A component holds no slash. -/
theorem slash_not_mem_toPosix (name : Name) : '/' ∉ name.toPosix.toList := by
  rw [toPosix, String.toList_ofList]
  exact not_mem_map_replace (by decide) name.characters

/-- A component without slashes comes back from the name that it stands for. -/
theorem toPosix_ofPosix {component : String} (without : '/' ∉ component.toList) :
    (ofPosix component).toPosix = component := by
  rw [toPosix, posixCharacters, characters, ofPosix, ofPosixCharacters, ofCharacters,
    Text.Units.decode_encode, map_replace_replace without, String.ofList_toList]

/-- The units that a component stands for are paired, and there is no colon among them. -/
theorem units_ofPosix (component : String) :
    Text.Units.Paired (ofPosix component).units ∧ (0x3A : UInt16) ∉ (ofPosix component).units :=
  ⟨Text.Units.paired_encode _, fun written => not_mem_map_replace (by decide) component.toList
    (Text.Units.mem_of_mem_encode (by decide) written)⟩

/-- A name comes back from its component exactly if no surrogate stands alone in it and it has no
colon. -/
theorem ofPosix_toPosix_iff (name : Name) : ofPosix name.toPosix = name ↔
    Text.Units.Paired name.units ∧ (0x3A : UInt16) ∉ name.units := by
  constructor
  · intro back
    rw [← back]
    exact units_ofPosix _
  · rintro ⟨paired, withoutColon⟩
    have unspelled : ':' ∉ name.characters := fun spelled =>
      withoutColon (Text.Units.mem_of_mem_decode paired spelled (by decide))
    rw [ofPosix, toPosix, String.toList_ofList, ofPosixCharacters, posixCharacters,
      map_replace_replace unspelled]
    exact congrArg Name.mk (Text.Units.encode_decode paired)

/-- **Names and components.** A component of a path that holds no slash comes back from the name
that it stands for. The component of a name holds no slash, and the name comes back from it exactly
if none of its units is half of a surrogate pair without the other half, and none is a colon. -/
theorem components_invertible :
    (∀ component : String, '/' ∉ component.toList → (ofPosix component).toPosix = component) ∧
      ∀ name : Name, '/' ∉ name.toPosix.toList ∧
        (ofPosix name.toPosix = name ↔
          (∀ before unit after, name.units = before ++ unit :: after →
            ¬ Text.Units.Lone before unit after) ∧ (0x3A : UInt16) ∉ name.units) := by
  refine ⟨fun _ without => toPosix_ofPosix without, fun name => ⟨name.slash_not_mem_toPosix, ?_⟩⟩
  rw [ofPosix_toPosix_iff, Text.Units.paired_iff]
  rfl

/-- A component with a colon and a character outside the basic plane comes back, and so does a
name with a slash and a pair. The halves of a pair in the wrong order do not, nor does a colon. -/
theorem components_invertible_sample :
    (ofPosix "a:😀").toPosix = "a:😀" ∧
      ofPosix (Name.mk [0x2F, 0xD83D, 0xDE00]).toPosix = Name.mk [0x2F, 0xD83D, 0xDE00] ∧
      ofPosix (Name.mk [0xDE00, 0xD83D]).toPosix ≠ Name.mk [0xDE00, 0xD83D] ∧
      ofPosix (Name.mk [0x3A]).toPosix ≠ Name.mk [0x3A] := by
  obtain ⟨component, name⟩ := components_invertible
  refine ⟨component _ (by decide), (name _).2.mpr ⟨?_, by decide⟩, fun back => ?_, fun back => ?_⟩
  · exact Text.Units.paired_iff.mp (by decide)
  · exact ((name _).2.mp back).1 [] 0xDE00 [0xD83D] rfl (.inr ⟨by decide, by simp⟩)
  · exact ((name _).2.mp back).2 (by decide)

namespace Spellable

variable {name : Name} (spellable : name.Spellable)
include spellable

/-- A component is not empty. -/
theorem toPosix_ne_nil : name.toPosix.toList ≠ [] := by
  rw [toPosix, String.toList_ofList]
  intro none_
  exact Text.Units.decode_ne_nil spellable.nonempty (List.map_eq_nil_iff.mp none_)

/-- Reading a component gives the name back. -/
theorem ofPosix_toPosix : ofPosix name.toPosix = name :=
  (ofPosix_toPosix_iff name).mpr ⟨spellable.paired, spellable.withoutColon⟩

end Spellable

end Name

namespace Path

/-- The pieces of a path are those that splitting it at slashes gives. -/
theorem pieces_eq_splitOn (path : List Char) : pieces path = path.splitOn '/' := by
  induction path with
  | nil => rfl
  | cons char rest inductionHypothesis =>
    rw [pieces, inductionHypothesis, List.splitOn_cons_eq_if_modifyHead]
    cases split : rest.splitOn '/' with
    | nil => exact absurd split (List.splitOn_ne_nil _ _)
    | cons piece later => simp only [beq_iff_eq, List.modifyHead_cons]

/-- A path of components, each behind a slash, falls into these components. -/
theorem components_intercalate {names : List String}
    (proper : ∀ name ∈ names, '/' ∉ name.toList ∧ name.toList ≠ []) :
    components ("/" ++ "/".intercalate names) = names := by
  have leading : pieces ("/" ++ "/".intercalate names).toList =
      [] :: pieces (['/'].intercalate (names.map String.toList)) := by
    rw [String.toList_append, String.toList_intercalate, pieces_eq_splitOn, pieces_eq_splitOn]
    exact List.splitOn_append_cons_self_of_not_mem List.not_mem_nil _
  rw [components, leading]
  cases names with
  | nil => rfl
  | cons first later =>
    have whole : ∀ piece ∈ (first :: later).map String.toList, '/' ∉ piece := by
      intro piece member
      obtain ⟨name, named, rfl⟩ := List.mem_map.mp member
      exact (proper name named).1
    have occupied : ∀ piece ∈ (first :: later).map String.toList, (!piece.isEmpty) = true := by
      intro piece member
      obtain ⟨name, named, rfl⟩ := List.mem_map.mp member
      simpa using (proper name named).2
    rw [pieces_eq_splitOn, List.splitOn_intercalate '/' whole (List.cons_ne_nil _ _),
      List.filter_cons_of_neg (by simp), List.filter_eq_self.mpr occupied, List.map_map]
    exact List.map_id'' (fun name => String.ofList_toList) _

end Path

end HfsPlus
