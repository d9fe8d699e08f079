import HfsPlus.Proofs.Name.Order

/-!
# What folding leaves of a name

Zero stands for a unit that folding passes over. No other unit folds to zero: the zero unit
itself goes behind all others, halves of pairs stay as they are, and the lower case of a
character is a character again. So what is compared of a name is the name without its
ignorable units, each other unit folded, and two names are equal in that order exactly if they
agree in this.
-/

namespace HfsPlus

open Std (LawfulEqCmp)

namespace Text.Lowercase

/-- The partners in a run are numbers of units, and none of them is zero. -/
def Proper : Run → Prop
  | (first, last, _, target) => 0 < target ∧ target + (last - first) < 0x10000

instance (run : Run) : Decidable (Proper run) := inferInstanceAs (Decidable (_ ∧ _))

/-- All runs are proper. -/
theorem runs_proper : ∀ run ∈ runs, Proper run := by decide +kernel

/-- Where all runs are proper, the partner of a unit that is not zero is such a unit. The
induction is on the runs that are still to be searched. -/
theorem partner_bounds {number : Nat} (positive : 0 < number) (inside : number < 0x10000)
    (table : List Run) (proper : ∀ run ∈ table, Proper run) :
    0 < partner number table ∧ partner number table < 0x10000 := by
  induction table with
  | nil => exact ⟨positive, inside⟩
  | cons run later inductionHypothesis =>
    obtain ⟨first, last, step, target⟩ := run
    have here : 0 < target ∧ target + (last - first) < 0x10000 := proper _ List.mem_cons_self
    rw [partner]
    split
    · exact ⟨positive, inside⟩
    · split
      next held =>
        rw [Bool.and_eq_true, decide_eq_true_eq] at held
        omega
      next =>
        apply inductionHypothesis
        intro run member
        exact proper run (List.mem_cons_of_mem _ member)

/-- The lower case of a unit that is not zero is a unit that is not zero. -/
theorem lower_bounds {number : Nat} (positive : 0 < number) (inside : number < 0x10000) :
    0 < lower number ∧ lower number < 0x10000 :=
  partner_bounds positive inside runs runs_proper

end Text.Lowercase

namespace Name

/-- Units that are compared as equal are the same. -/
theorem eq_of_compareUnits {left right : List UInt16} (equal : compareUnits left right = .eq) :
    left = right := by
  rw [compareUnits_eq] at equal
  exact LawfulEqCmp.eq_of_compare equal

instance : LawfulEqCmp compareUnits where
  eq_of_compare := eq_of_compareUnits

instance : LawfulEqCmp compareBinary where
  eq_of_compare {left right} equal := by
    obtain ⟨leftUnits⟩ := left
    obtain ⟨rightUnits⟩ := right
    exact congrArg mk (eq_of_compareUnits equal)

/-- Only ignorable units are passed over. -/
theorem foldUnit_eq_zero (unit : UInt16) : foldUnit unit = 0 ↔ isIgnorable unit = true := by
  by_cases zero : unit = 0
  · subst zero
    decide
  have positive : 0 < unit.toNat := by
    rw [Nat.pos_iff_ne_zero]
    intro none_
    exact zero (UInt16.toNat_inj.mp none_)
  unfold foldUnit
  rw [if_neg zero]
  split
  next ignorable => simp [ignorable]
  next shown =>
    split
    next half => simp [zero, shown]
    next =>
      obtain ⟨nonzero, inside⟩ := Text.Lowercase.lower_bounds positive unit.toNat_lt
      have kept : UInt16.ofNat (Text.Lowercase.lower unit.toNat) ≠ 0 := by
        intro vanished
        have number := congrArg UInt16.toNat vanished
        simp only [UInt16.toNat_ofNat', UInt16.toNat_zero] at number
        omega
      simp [kept, shown]

/-- The units of a name that are not ignorable, each folded. -/
def foldedShown (name : Name) : List UInt16 :=
  (name.units.filter fun unit => !isIgnorable unit).map foldUnit

/-- This is what a folding comparison compares. -/
theorem folded_eq (name : Name) : folded name.units = name.foldedShown := by
  rw [folded, foldedShown, List.filter_map]
  congr 1
  apply List.filter_congr
  intro unit _
  rw [Function.comp_apply, Bool.eq_iff_iff]
  simp [foldUnit_eq_zero]

/-- Names are equal up to letter case exactly if their shown units fold alike. -/
theorem compareFolding_eq (left right : Name) :
    compareFolding left right = .eq ↔ left.foldedShown = right.foldedShown := by
  rw [compareFolding, LawfulEqCmp.compare_eq_iff_eq, folded_eq, folded_eq]

end Name

end HfsPlus
