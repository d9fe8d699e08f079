import HfsPlus.Record.Catalog

/-!
# Names and catalog keys are totally preordered

Units are compared as lists are, first difference first. Folding compares what is left
of the names, so names that differ in nothing else are equal in this order. Either way
the order is total and transitive, and so is that of catalog keys: parents first, then
names.
-/

namespace HfsPlus

open Std (TransCmp)

/-- Comparing what things are mapped to is a total preorder where the images have one. -/
theorem transCmp_on {α β : Type} {order : β → β → Ordering} [TransCmp order] (image : α → β) :
    TransCmp fun left right => order (image left) (image right) where
  eq_swap := Std.OrientedCmp.eq_swap
  isLE_trans := TransCmp.isLE_trans

namespace Name

/-- Units are compared as lists of units. -/
theorem compareUnits_eq (left right : List UInt16) :
    compareUnits left right = left.compareLex compare right := by
  induction left, right using compareUnits.induct with
  | case1 => rfl
  | case2 => rfl
  | case3 => rfl
  | case4 left lefts right rights inductionHypothesis =>
    rw [compareUnits, inductionHypothesis, List.compareLex_cons_cons]

instance : TransCmp compareUnits := by
  have same : compareUnits = List.compareLex compare := by
    funext left right
    exact compareUnits_eq left right
  rw [same]
  infer_instance

instance : TransCmp compareBinary := transCmp_on Name.units

instance : TransCmp compareFolding := transCmp_on fun name : Name => folded name.units

end Name

namespace Catalog

instance (caseSensitive : Bool) : TransCmp (compareNames caseSensitive) := by
  cases caseSensitive with
  | true => exact inferInstanceAs (TransCmp Name.compareBinary)
  | false => exact inferInstanceAs (TransCmp Name.compareFolding)

instance (caseSensitive : Bool) : TransCmp (compareKeys caseSensitive) := by
  have parents : TransCmp fun left right : CatalogKey => compare left.parentId right.parentId :=
    transCmp_on CatalogKey.parentId
  have names : TransCmp fun left right : CatalogKey =>
      compareNames caseSensitive left.name right.name := transCmp_on CatalogKey.name
  exact inferInstanceAs (TransCmp (compareLex _ _))

/-- Keys that count as equal have the same parent. -/
theorem parentId_of_compareKeys {caseSensitive : Bool} {left right : CatalogKey}
    (equal : compareKeys caseSensitive left right = .eq) : left.parentId = right.parentId := by
  rw [compareKeys, Ordering.then_eq_eq] at equal
  exact Std.LawfulEqCmp.eq_of_compare equal.1

end Catalog

end HfsPlus
