import HfsPlus.Proofs.Name.Folding
import HfsPlus.Proofs.Record.Groups
import HfsPlus.Record.HotFile
import HfsPlus.Record.Overflow

/-!
# The orders of keys

Each of the four trees compares its keys part by part, and in an order of its own. All of
these are total preorders, which every search and every scan rests on. Where names are
compared as they are, or where there are none, keys count as equal only if they are the same;
where letter case is folded, if their parents are the same and their names fold alike.

Some keys are known to come first or last. A parent's thread and the first key of a file's
attributes come before the rest of their groups and behind all groups before, and the threads
of the hot files come behind everything else.
-/

namespace HfsPlus

open Std (LawfulEqCmp OrientedCmp ReflCmp TransCmp)

/-- An order of keys that searches can rely on. Keys that count as equal cannot be told apart by
comparing them. -/
structure KeyOrder {Key : Type} (order : Key → Key → Ordering) : Prop where
  refl : ∀ key, order key key = .eq
  swap : ∀ left right, order left right = (order right left).swap
  trans : ∀ left middle right, (order left middle).isLE → (order middle right).isLE →
    (order left right).isLE
  total : ∀ left right, (order left right).isLE ∨ (order right left).isLE
  alike : ∀ left right, order left right = .eq → ∀ third,
    order left third = order right third ∧ order third left = order third right

/-- A known key of each group comes first in it, and behind all groups with smaller numbers. -/
structure Leads {Key : Type} (order : Key → Key → Ordering) (group : Key → UInt32)
    (first : UInt32 → Key) : Prop where
  least : ∀ key, order (first (group key)) key ≠ .gt
  behind : ∀ number key, group key < number → order (first number) key = .gt

/-- Groups are led by their first keys. -/
theorem Grouped.leads {Key : Type} {order : Key → Key → Ordering} {group : Key → UInt32}
    {first : UInt32 → Key} [OrientedCmp order] (grouped : Grouped order group first) :
    Leads order group first where
  least key greater := by
    have smaller := grouped.least key
    rw [OrientedCmp.lt_of_gt greater] at smaller
    cases smaller
  behind number key below := by
    apply OrientedCmp.gt_of_lt
    apply grouped.apart
    rwa [grouped.inside]

/-- Total preorders are orders of keys. -/
theorem KeyOrder.of_transCmp {Key : Type} (order : Key → Key → Ordering) [TransCmp order] :
    KeyOrder order where
  refl _ := ReflCmp.compare_self
  swap _ _ := OrientedCmp.eq_swap
  trans _ _ _ := TransCmp.isLE_trans
  total left right := by
    have mirrored : order right left = (order left right).swap := OrientedCmp.eq_swap
    rw [mirrored]
    cases order left right <;> decide
  alike _ _ equal _ := ⟨TransCmp.congr_left equal, TransCmp.congr_right equal⟩

instance : TransCmp ForkKind.compare := transCmp_on ForkKind.byte

instance : LawfulEqCmp ForkKind.compare where
  eq_of_compare {left right} equal := by
    cases left <;> cases right <;> first | rfl | cases equal

namespace ExtentKey

instance : TransCmp ExtentKey.compare := by
  have files : TransCmp fun left right : ExtentKey => Ord.compare left.fileId right.fileId :=
    transCmp_on ExtentKey.fileId
  have kinds : TransCmp fun left right : ExtentKey => ForkKind.compare left.kind right.kind :=
    transCmp_on ExtentKey.kind
  have blocks : TransCmp fun left right : ExtentKey =>
      Ord.compare left.startBlock right.startBlock := transCmp_on ExtentKey.startBlock
  exact inferInstanceAs (TransCmp (compareLex _ (compareLex _ _)))

/-- Keys of overflow records are equal only if they name one block of one fork. -/
theorem eq_of_compare {left right : ExtentKey} (equal : compare left right = .eq) :
    left = right := by
  obtain ⟨leftKind, leftFile, leftBlock⟩ := left
  obtain ⟨rightKind, rightFile, rightBlock⟩ := right
  simp only [compare, Ordering.then_eq_eq, LawfulEqCmp.compare_eq_iff_eq] at equal
  obtain ⟨file, kind, block⟩ := equal
  rw [file, kind, block]

instance : LawfulEqCmp ExtentKey.compare := ⟨eq_of_compare⟩

end ExtentKey

namespace AttributeKey

instance : LawfulEqCmp AttributeKey.compare where
  eq_of_compare {left right} equal := by
    obtain ⟨leftFile, leftBlock, leftName⟩ := left
    obtain ⟨rightFile, rightBlock, rightName⟩ := right
    simp only [compare, Ordering.then_eq_eq, LawfulEqCmp.compare_eq_iff_eq] at equal
    obtain ⟨file, name, block⟩ := equal
    rw [file, name, block]

end AttributeKey

namespace HotFileKey

instance : TransCmp HotFileKey.compare := by
  have temperatures : TransCmp fun left right : HotFileKey =>
      Ord.compare left.temperature right.temperature := transCmp_on HotFileKey.temperature
  have files : TransCmp fun left right : HotFileKey => Ord.compare left.fileId right.fileId :=
    transCmp_on HotFileKey.fileId
  have kinds : TransCmp fun left right : HotFileKey => ForkKind.compare left.kind right.kind :=
    transCmp_on HotFileKey.kind
  exact inferInstanceAs (TransCmp (compareLex _ (compareLex _ _)))

instance : LawfulEqCmp HotFileKey.compare where
  eq_of_compare {left right} equal := by
    obtain ⟨leftKind, leftTemperature, leftFile⟩ := left
    obtain ⟨rightKind, rightTemperature, rightFile⟩ := right
    simp only [compare, Ordering.then_eq_eq, LawfulEqCmp.compare_eq_iff_eq] at equal
    obtain ⟨temperature, file, kind⟩ := equal
    rw [temperature, file, kind]

/-- Threads have the greatest temperature, and only threads have it. -/
theorem compare_thread {thread key : HotFileKey} (isThread : thread.isThread = true)
    (other : key.isThread = false) : compare thread key = .gt := by
  have greatest : thread.temperature = threadTemperature := by
    simpa [HotFileKey.isThread] using isThread
  have smaller : key.temperature.toNat ≠ threadTemperature.toNat := by
    intro same
    simp [HotFileKey.isThread, UInt32.toNat_inj.mp same] at other
  have below : key.temperature < thread.temperature := by
    have bound := key.temperature.toNat_lt
    have number : threadTemperature.toNat = 4294967295 := rfl
    rw [greatest, UInt32.lt_iff_toNat_lt]
    omega
  have temperatures : Ord.compare thread.temperature key.temperature = .gt :=
    Std.compare_eq_gt.mpr below
  rw [compare, temperatures]
  rfl

end HotFileKey

namespace Catalog

/-- Compared with their names as they are, keys are equal only if they are the same. -/
theorem compareKeys_binary (left right : CatalogKey) :
    compareKeys true left right = .eq ↔ left = right := by
  obtain ⟨leftParent, leftName⟩ := left
  obtain ⟨rightParent, rightName⟩ := right
  have names : compareNames true leftName rightName = .eq ↔ leftName = rightName := by
    change leftName.compareBinary rightName = .eq ↔ _
    exact LawfulEqCmp.compare_eq_iff_eq
  rw [compareKeys, Ordering.then_eq_eq, names, LawfulEqCmp.compare_eq_iff_eq, CatalogKey.mk.injEq]

/-- Compared up to letter case, keys are equal if they have one parent and their names fold
alike. -/
theorem compareKeys_folding (left right : CatalogKey) :
    compareKeys false left right = .eq ↔
      left.parentId = right.parentId ∧ left.name.foldedShown = right.name.foldedShown := by
  rw [compareKeys, Ordering.then_eq_eq, LawfulEqCmp.compare_eq_iff_eq]
  exact and_congr_right fun _ => Name.compareFolding_eq left.name right.name

end Catalog

/-- **The four orders of keys are sound.** Each of them, the catalog's in both variants, is a
total preorder, however long the names are and whatever their units. Keys count as equal only if
they are the same, or, in a catalog that folds letter case, if their parents are the same and so
are their folded names without the ignorable units. A thread comes first under its parent, and
behind all smaller parents; so does the first key of a file among those of attributes; and the
threads of hot files come behind all other keys. -/
theorem keys_ordered :
    (∀ caseSensitive, KeyOrder (Catalog.schema caseSensitive).compare) ∧
      KeyOrder overflowSchema.compare ∧ KeyOrder attributeSchema.compare ∧
      KeyOrder hotFileSchema.compare ∧
      (∀ left right, (Catalog.schema true).compare left right = .eq ↔ left = right) ∧
      (∀ left right, overflowSchema.compare left right = .eq ↔ left = right) ∧
      (∀ left right, attributeSchema.compare left right = .eq ↔ left = right) ∧
      (∀ left right, hotFileSchema.compare left right = .eq ↔ left = right) ∧
      (∀ left right, (Catalog.schema false).compare left right = .eq ↔
        left.parentId = right.parentId ∧ left.name.foldedShown = right.name.foldedShown) ∧
      (∀ caseSensitive,
        Leads (Catalog.schema caseSensitive).compare CatalogKey.parentId CatalogKey.thread) ∧
      Leads attributeSchema.compare AttributeKey.fileId AttributeKey.firstOf ∧
      ∀ thread key : HotFileKey, thread.isThread = true → key.isThread = false →
        hotFileSchema.compare thread key = .gt := by
  refine ⟨fun caseSensitive => ?catalog, ?overflow, ?attributes, ?hotFiles, ?binary, ?sameBlock,
    ?sameAttribute, ?sameHotFile, ?folding, fun caseSensitive => ?threads, ?files, ?last⟩
  case catalog => exact .of_transCmp (Catalog.compareKeys caseSensitive)
  case overflow => exact .of_transCmp ExtentKey.compare
  case attributes => exact .of_transCmp AttributeKey.compare
  case hotFiles => exact .of_transCmp HotFileKey.compare
  case binary => exact Catalog.compareKeys_binary
  case sameBlock =>
    intro left right
    show ExtentKey.compare left right = .eq ↔ left = right
    exact LawfulEqCmp.compare_eq_iff_eq
  case sameAttribute =>
    intro left right
    show AttributeKey.compare left right = .eq ↔ left = right
    exact LawfulEqCmp.compare_eq_iff_eq
  case sameHotFile =>
    intro left right
    show HotFileKey.compare left right = .eq ↔ left = right
    exact LawfulEqCmp.compare_eq_iff_eq
  case folding => exact Catalog.compareKeys_folding
  case threads => exact (Catalog.grouped caseSensitive).leads
  case files => exact AttributeKey.grouped.leads
  case last =>
    intro thread key isThread other
    exact HotFileKey.compare_thread isThread other

end HfsPlus
