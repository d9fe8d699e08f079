import HfsPlus.Code

/-!
# Numbers that stand for alternatives

Where every alternative of a set is listed and no two share a number, a number is accepted
exactly if an alternative has it, and then it stands for that one.
-/

namespace HfsPlus

/-- Every alternative is listed, under a number of its own. -/
class LawfulCoded (α : Type) [Coded α] : Prop where
  listed : ∀ alternative : α, alternative ∈ Coded.all
  distinct : ∀ left right : α, Coded.code left = Coded.code right → left = right

/-- A number stands for the alternative that has it. -/
theorem Coded.ofCode_eq_ok {α : Type} [Coded α] [LawfulCoded α] {number : Int} {alternative : α} :
    ofCode number = .ok alternative ↔ code alternative = number := by
  unfold ofCode
  constructor
  · intro accepted
    split at accepted
    next found first =>
      obtain ⟨⟩ := accepted
      simpa using List.find?_some first
    next => cases accepted
  · rintro rfl
    split
    next found first =>
      have same : code found = code alternative := by simpa using List.find?_some first
      rw [LawfulCoded.distinct found alternative same]
    next missing =>
      have refused := List.find?_eq_none.mp missing alternative (LawfulCoded.listed alternative)
      simp at refused

/-- A number that stands for nothing is reported with its field. -/
theorem Coded.ofCode_eq_error {α : Type} [Coded α] {number : Int} {unknown : UnknownCode}
    (refused : (ofCode number : Except UnknownCode α) = .error unknown) :
    unknown = ⟨field α, number⟩ := by
  unfold ofCode at refused
  split at refused
  · cases refused
  · obtain ⟨⟩ := refused
    rfl

instance : LawfulCoded VolumeSignature where
  listed signature := by cases signature <;> decide
  distinct left right := by cases left <;> cases right <;> decide

instance : LawfulCoded NodeKind where
  listed kind := by cases kind <;> decide
  distinct left right := by cases left <;> cases right <;> decide

instance : LawfulCoded ForkKind where
  listed kind := by cases kind <;> decide
  distinct left right := by cases left <;> cases right <;> decide

instance : LawfulCoded CatalogRecordType where
  listed type := by cases type <;> decide
  distinct left right := by cases left <;> cases right <;> decide

instance : LawfulCoded AttributeRecordType where
  listed type := by cases type <;> decide
  distinct left right := by cases left <;> cases right <;> decide

end HfsPlus
