import HfsPlus.Proofs.Agreement
import Mathlib.Tactic.Choose

/-!
# Computations that may stop without an outcome

A computation in `OptionT` may stop at a point where it cannot go on, without an error and without
a result. Such a computation completes as another one, `completing`, if it never stops and finds
what the other one finds, whatever surrounds the two. Along with what both find, the agreement
carries what is known about it, so that a step may rest on what the steps before it have come to.
A state that is passed along may have an invariant, `keeping`, which serves the same purpose.
-/

namespace HfsPlus

section Stopping

variable {m : Type → Type} [Monad m]

/-- What may be missing may stop a computation. -/
instance liftOption : MonadLift Option (OptionT m) := ⟨fun outcome => OptionT.mk (pure outcome)⟩

instance lawfulLiftOption [LawfulMonad m] : LawfulMonadLift Option (OptionT m) where
  monadLift_pure _ := rfl
  monadLift_bind first next := by
    apply OptionT.ext
    change pure (first >>= next) = _
    rw [OptionT.run_bind]
    change _ = pure first >>= _
    rw [pure_bind]
    cases first <;> rfl

instance [Logging m] : Logging (OptionT m) := ⟨fun event => OptionT.lift (log event)⟩

/-- Whatever a computation finds has a property. -/
def Always {α : Type} (property : α → Prop) (computation : m α) : Prop :=
  ∃ certain : m {value // property value}, Subtype.val <$> certain = computation

end Stopping

namespace Agreement

/-- Computations that pass a state with an invariant along agree when, from every such state, they
find related values and leave the same state, again with the invariant. -/
def keeping {M N : Type → Type} [Monad M] [Monad N] [Logging M] [Logging N]
    [LawfulMonad M] [LawfulMonad N] (agreement : Agreement M N) {σ : Type} (invariant : σ → Prop) :
    Agreement (StateT σ M) (StateT σ N) where
  holds related left right := ∀ state, invariant state → agreement.holds
    (fun leftEnd rightEnd => related leftEnd.1 rightEnd.1 ∧ leftEnd.2 = rightEnd.2 ∧
      invariant rightEnd.2)
    (left.run state) (right.run state)
  holds_pure same _ kept := agreement.holds_pure ⟨same, rfl, kept⟩
  holds_bind := by
    intro α β α' β' related related' left right leftNext rightNext first next state kept
    refine agreement.holds_bind (first state kept) ?_
    rintro ⟨leftValue, leftState⟩ ⟨rightValue, rightState⟩ ⟨same, rfl, keptAfter⟩
    exact next leftValue rightValue same leftState keptAfter
  holds_log event state kept := by
    refine agreement.holds_bind (agreement.holds_log event) ?_
    rintro _ _ rfl
    exact agreement.holds_pure ⟨rfl, rfl, kept⟩

/-- A computation that cannot stop finds twice what it finds once. -/
theorem exists_doubled {m : Type → Type} [Monad m] [LawfulMonad m] {α : Type}
    (certain : m α) :
    ∃ joint : m {pair : α × α // pair.1 = pair.2},
      (OptionT.lift certain).run = (fun pair => some pair.val.1) <$> joint ∧
        certain = (fun pair => pair.val.2) <$> joint := by
  refine ⟨(fun value => ⟨(value, value), rfl⟩) <$> certain, ?_, ?_⟩
  · rw [← comp_map]
    exact bind_pure_comp some certain
  · rw [← comp_map]
    exact (id_map _).symm

section Completing

variable (m : Type → Type) [Monad m] [LawfulMonad m] [Logging m]

/-- A computation that may stop completes as one that may not. The pairs of what the two find make
one computation, of which each of them shows its half. -/
def completing : Agreement (OptionT m) m where
  holds {α β} related left right := ∃ joint : m {pair : α × β // related pair.1 pair.2},
    left.run = (fun pair => some pair.val.1) <$> joint ∧
      right = (fun pair => pair.val.2) <$> joint
  holds_pure {α β related left right} same := by
    refine ⟨pure ⟨(left, right), same⟩, ?_, ?_⟩
    · rw [map_pure]
      rfl
    · rw [map_pure]
  holds_bind := by
    rintro α β α' β' related related' left right leftNext rightNext ⟨joint, leftHalf, rightHalf⟩ next
    choose further leftHalves rightHalves using next
    refine ⟨joint >>= fun pair => further pair.val.1 pair.val.2 pair.property, ?_, ?_⟩
    · rw [OptionT.run_bind, leftHalf, Option.elimM, bind_map_left, map_bind]
      exact bind_congr fun pair => leftHalves _ _ pair.property
    · rw [rightHalf, bind_map_left, map_bind]
      exact bind_congr fun pair => rightHalves _ _ pair.property
  holds_log event := exists_doubled (log event)

variable {m} {α : Type} {left : OptionT m α} {right : m α}

/-- A computation that cannot stop completes as itself. -/
theorem completing_lift (certain : m α) :
    (completing m).holds Eq (OptionT.lift certain) certain := exists_doubled certain

/-- A computation that completes never stops. -/
theorem run_of_completing (completes : (completing m).holds Eq left right) :
    left.run = some <$> right := by
  obtain ⟨joint, leftHalf, rightHalf⟩ := completes
  rw [leftHalf, rightHalf, ← comp_map]
  congr 1
  exact funext fun pair => congrArg some pair.property

/-- What it finds is as is known about it. -/
theorem always_of_completing {property : α → Prop}
    (completes : (completing m).holds (fun _ => property) left right) : Always property right := by
  obtain ⟨joint, -, rightHalf⟩ := completes
  refine ⟨(fun pair => ⟨pair.val.2, pair.property⟩) <$> joint, ?_⟩
  rw [rightHalf, ← comp_map]
  rfl

end Completing

end Agreement

end HfsPlus
