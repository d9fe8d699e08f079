import HfsPlus.Proofs.Name.Order
import HfsPlus.Proofs.Tree.Range
import HfsPlus.Record.Attribute

/-!
# Folders and files as groups of keys

The catalog keeps what is in a folder under the number of the folder, and the attributes tree
keeps the attributes of a file under the number of the file. In both orders the number comes
first, and the key with the empty name, and the first block, comes first of its group. No
name is smaller than the empty one, whichever way names are compared: a name whose units are
all passed over is not greater either, but equal.
-/

namespace HfsPlus

open Std (TransCmp)

namespace Name

/-- No units are smaller than none. -/
theorem compareUnits_nil (units : List UInt16) : (compareUnits units []).isGE := by
  cases units with
  | nil => rfl
  | cons unit later => rfl

end Name

namespace Catalog

/-- No name is smaller than the empty one. -/
theorem compareNames_empty (caseSensitive : Bool) (name : Name) :
    (compareNames caseSensitive name .empty).isGE := by
  cases caseSensitive with
  | true => exact Name.compareUnits_nil name.units
  | false => exact Name.compareUnits_nil (Name.folded name.units)

/-- The keys of a catalog stand in groups by their parents, each behind the key of its
thread. -/
theorem grouped (caseSensitive : Bool) :
    Grouped (compareKeys caseSensitive) CatalogKey.parentId CatalogKey.thread where
  apart left right below := by
    have parents : compare left.parentId right.parentId = .lt := Std.compare_eq_lt.mpr below
    simp [compareKeys, parents]
  inside _ := rfl
  least key := by
    have parents : compare key.parentId key.parentId = .eq := Std.ReflCmp.compare_self
    rw [compareKeys, CatalogKey.thread, parents]
    exact compareNames_empty caseSensitive key.name

end Catalog

namespace AttributeKey

instance : TransCmp AttributeKey.compare := by
  have files : TransCmp fun left right : AttributeKey => Ord.compare left.fileId right.fileId :=
    transCmp_on AttributeKey.fileId
  have names : TransCmp fun left right : AttributeKey => left.name.compareBinary right.name :=
    transCmp_on AttributeKey.name
  have blocks : TransCmp fun left right : AttributeKey =>
      Ord.compare left.startBlock right.startBlock := transCmp_on AttributeKey.startBlock
  exact inferInstanceAs (TransCmp (compareLex _ (compareLex _ _)))

/-- Of one file, keys are ordered by name, and those of one name by block. -/
theorem compare_of_file {left right : AttributeKey} (same : left.fileId = right.fileId) :
    compare left right = (left.name.compareBinary right.name).then
      (Ord.compare left.startBlock right.startBlock) := by
  have files : Ord.compare left.fileId right.fileId = .eq := by
    rw [same]
    exact Std.ReflCmp.compare_self
  rw [compare, files]
  rfl

/-- The keys of attributes stand in groups by their files, each of which starts with the empty
name and the first block. -/
theorem grouped : Grouped AttributeKey.compare AttributeKey.fileId AttributeKey.firstOf where
  apart left right below := by
    have files : Ord.compare left.fileId right.fileId = .lt := Std.compare_eq_lt.mpr below
    simp [compare, files]
  inside _ := rfl
  least key := by
    obtain ⟨file, block, ⟨units⟩⟩ := key
    have blocks : (Ord.compare block 0).isGE := Std.isGE_compare.mpr UInt32.zero_le
    have sameFile : (⟨file, block, ⟨units⟩⟩ : AttributeKey).fileId = (firstOf file).fileId := rfl
    rw [compare_of_file sameFile]
    cases units with
    | nil => exact blocks
    | cons unit later => rfl

end AttributeKey

end HfsPlus
