import HfsPlus.Error
import HfsPlus.Log
import Mathlib.Control.Basic

/-!
# Ways of computing that agree

Searching a tree, following a path or counting a catalog is written once, for any
monad in which nodes can be got. Whether two ways of getting nodes lead to the same
answers is therefore a question about the nodes alone, provided that whatever is
done with them keeps the agreement.

An `Agreement` between two monads says which computations agree on which values,
and that doing nothing, going on with what was found and noting an event keep it.
It carries over to computations that may fail and to computations that pass a state
along. `ofInvariant` is where an agreement starts from: a computation with a state
agrees with a value if it gives that value from every state with the invariant, and
leaves a state with the invariant behind.
-/

namespace HfsPlus

/-- Which computations of two monads agree, up to a relation between their values. -/
structure Agreement (M N : Type → Type) [Monad M] [Monad N] [Logging M] [Logging N] where
  /-- Two computations agree up to a relation between their values. -/
  holds : {α β : Type} → (related : α → β → Prop) → M α → N β → Prop
  holds_pure : ∀ {α β : Type} {related : α → β → Prop} {left : α} {right : β},
    related left right → holds related (pure left) (pure right)
  holds_bind : ∀ {α β α' β' : Type} {related : α → β → Prop} {related' : α' → β' → Prop}
    {left : M α} {right : N β} {leftNext : α → M α'} {rightNext : β → N β'},
    holds related left right →
    (∀ leftValue rightValue, related leftValue rightValue →
      holds related' (leftNext leftValue) (rightNext rightValue)) →
    holds related' (left >>= leftNext) (right >>= rightNext)
  holds_log : ∀ event, holds Eq (log event : M Unit) (log event : N Unit)

namespace Agreement

variable {M N : Type → Type} [Monad M] [Monad N] [Logging M] [Logging N]
variable (agreement : Agreement M N)

/-- Equal values are found the same way on both sides. -/
theorem holds_same {α : Type} (value : α) :
    agreement.holds Eq (pure value) (pure value) := agreement.holds_pure rfl

/-- Going on in the same way with what both sides found keeps their agreement. -/
theorem holds_next {α α' β' : Type} {related : α' → β' → Prop} {left : M α} {right : N α}
    {leftNext : α → M α'} {rightNext : α → N β'} (first : agreement.holds Eq left right)
    (next : ∀ value, agreement.holds related (leftNext value) (rightNext value)) :
    agreement.holds related (left >>= leftNext) (right >>= rightNext) := by
  refine agreement.holds_bind first ?_
  rintro value _ rfl
  exact next value

/-- Noting the same event first keeps the agreement. -/
theorem holds_noted {α β : Type} {related : α → β → Prop} (event : Event) {left : M α}
    {right : N β} (next : agreement.holds related left right) :
    agreement.holds related (log event >>= fun _ => left) (log event >>= fun _ => right) :=
  agreement.holds_next (agreement.holds_log event) fun _ => next

/-- Noting the same event first keeps the agreement, also if it is not always noted. -/
theorem holds_noted_if {α β : Type} {related : α → β → Prop} (event : Event) {left : M α}
    {right : N β} (next : agreement.holds related left right) {condition : Prop}
    [Decidable condition] :
    agreement.holds related (if condition then log event >>= fun _ => left else left)
      (if condition then log event >>= fun _ => right else right) := by
  split
  · exact agreement.holds_noted event next
  · exact next

section Lawful

variable [LawfulMonad M] [LawfulMonad N]

/-- Changing what both sides found carries the relation over to what it became. -/
theorem holds_map {α β α' β' : Type} {related : α → β → Prop} {related' : α' → β' → Prop}
    {left : M α} {right : N β} (leftChange : α → α') (rightChange : β → β')
    (first : agreement.holds related left right)
    (changed : ∀ leftValue rightValue, related leftValue rightValue →
      related' (leftChange leftValue) (rightChange rightValue)) :
    agreement.holds related' (leftChange <$> left) (rightChange <$> right) := by
  rw [map_eq_pure_bind, map_eq_pure_bind]
  exact agreement.holds_bind first fun leftValue rightValue same =>
    agreement.holds_pure (changed leftValue rightValue same)

/-- What agrees up to a relation agrees up to any weaker one. -/
theorem holds_weaken {α β : Type} {related weaker : α → β → Prop} {left : M α} {right : N β}
    (same : agreement.holds related left right)
    (weakened : ∀ leftValue rightValue, related leftValue rightValue →
      weaker leftValue rightValue) : agreement.holds weaker left right := by
  have mapped : agreement.holds weaker (id <$> left) (id <$> right) :=
    agreement.holds_map id id same weakened
  rwa [id_map, id_map] at mapped

/-- Two outcomes are the same error, or values that are related. -/
def Outcomes {ε α β : Type} (related : α → β → Prop) : Except ε α → Except ε β → Prop
  | .ok left, .ok right => related left right
  | .error left, .error right => left = right
  | _, _ => False

/-- Every outcome is the same as itself. -/
theorem outcomes_same {ε α : Type} (outcome : Except ε α) :
    Outcomes Eq outcome outcome := by
  cases outcome <;> rfl

/-- Outcomes with equal values are equal. -/
theorem outcomes_eq {ε α : Type} {left right : Except ε α} (same : Outcomes Eq left right) :
    left = right := by
  cases left <;> cases right <;> simp_all [Outcomes]

/-- Computations that may fail agree when they fail alike or find related values. -/
def exceptT (ε : Type) : Agreement (ExceptT ε M) (ExceptT ε N) where
  holds related left right := agreement.holds (Outcomes related) left.run right.run
  holds_pure same := agreement.holds_pure same
  holds_bind := by
    intro α β α' β' related related' left right leftNext rightNext first next
    refine agreement.holds_bind first ?_
    rintro (leftCause | leftValue) (rightCause | rightValue) same
    · exact agreement.holds_pure same
    · exact same.elim
    · exact same.elim
    · exact next leftValue rightValue same
  holds_log event :=
    agreement.holds_map _ _ (agreement.holds_log event) fun _ _ same => same

/-- Computations that pass the same state along agree when, from every state, they
find related values and leave the same state. -/
def stateT (σ : Type) : Agreement (StateT σ M) (StateT σ N) where
  holds related left right := ∀ state, agreement.holds
    (fun leftEnd rightEnd => related leftEnd.1 rightEnd.1 ∧ leftEnd.2 = rightEnd.2)
    (left.run state) (right.run state)
  holds_pure same _ := agreement.holds_pure ⟨same, rfl⟩
  holds_bind := by
    intro α β α' β' related related' left right leftNext rightNext first next state
    refine agreement.holds_bind (first state) ?_
    rintro ⟨leftValue, leftState⟩ ⟨rightValue, rightState⟩ ⟨same, rfl⟩
    exact next leftValue rightValue same leftState
  holds_log event state := by
    refine agreement.holds_bind (agreement.holds_log event) ?_
    rintro _ _ rfl
    exact agreement.holds_pure ⟨rfl, rfl⟩

/-- An outcome that was known beforehand is the same on both sides. -/
theorem holds_outcome {ε α : Type} (outcome : Except ε α) :
    (agreement.exceptT ε).holds Eq (liftM outcome : ExceptT ε M α) (liftM outcome) :=
  agreement.holds_pure (outcomes_same outcome)

/-- Both sides fail with the same error. -/
theorem holds_throw {ε α β : Type} {related : α → β → Prop} (cause : ε) :
    (agreement.exceptT ε).holds related (throw cause : ExceptT ε M α) (throw cause) :=
  agreement.holds_pure rfl

/-- Both sides fail with the same error, whatever would have followed. -/
theorem holds_refused {ε α β α' β' : Type} {related : α' → β' → Prop} (cause : ε)
    {leftNext : α → ExceptT ε M α'} {rightNext : β → ExceptT ε N β'} :
    (agreement.exceptT ε).holds related (throw cause >>= leftNext) (throw cause >>= rightNext) := by
  have failed : (agreement.exceptT ε).holds (fun (_ : α) (_ : β) => False) (throw cause)
      (throw cause) := agreement.holds_throw cause
  exact holds_bind _ failed fun _ _ => False.elim

/-- What cannot fail agrees as a computation that may fail as well. -/
theorem holds_lift {ε α β : Type} {related : α → β → Prop} {left : M α} {right : N β}
    (same : agreement.holds related left right) :
    (agreement.exceptT ε).holds related (ExceptT.lift left) (ExceptT.lift right) :=
  agreement.holds_map _ _ same fun _ _ related => related

/-- Agreement on equal values is agreement on equal outcomes. -/
theorem holds_run {ε α : Type} {left : ExceptT ε M α} {right : ExceptT ε N α}
    (same : (agreement.exceptT ε).holds Eq left right) :
    agreement.holds Eq left.run right.run :=
  agreement.holds_weaken same fun _ _ => outcomes_eq

/-- Agreement on equal outcomes is agreement on equal values. -/
theorem holds_mk {ε α : Type} {left : M (Except ε α)} {right : N (Except ε α)}
    (same : agreement.holds Eq left right) :
    (agreement.exceptT ε).holds Eq (ExceptT.mk left) (ExceptT.mk right) := by
  refine agreement.holds_weaken same ?_
  rintro outcome _ rfl
  exact outcomes_same outcome

/-- Computations with a state that agree find equal values and leave equal states. -/
theorem holds_from {σ α : Type} {left : StateT σ M α} {right : StateT σ N α}
    (same : (agreement.stateT σ).holds Eq left right) (state : σ) :
    agreement.holds Eq (left.run state) (right.run state) :=
  agreement.holds_weaken (same state) fun _ _ ends => Prod.ext ends.1 ends.2

/-- The state that is passed along is the same on both sides. -/
theorem state_read {σ ε : Type} : ((agreement.stateT σ).exceptT ε).holds Eq
    (getThe σ : ExceptT ε (StateT σ M) σ) (getThe σ) :=
  holds_lift _ fun _ => agreement.holds_pure ⟨rfl, rfl⟩

/-- Setting the same state leaves the same state. -/
theorem state_written {σ ε : Type} (state : σ) : ((agreement.stateT σ).exceptT ε).holds Eq
    (set state : ExceptT ε (StateT σ M) PUnit) (set state) :=
  holds_lift _ fun _ => agreement.holds_pure ⟨rfl, rfl⟩

/-- Changing the same state in the same way leaves the same state. -/
theorem state_changed {σ ε : Type} (change : σ → σ) : ((agreement.stateT σ).exceptT ε).holds Eq
    (modifyThe σ change : ExceptT ε (StateT σ M) PUnit) (modifyThe σ change) :=
  holds_lift _ fun _ => agreement.holds_pure ⟨rfl, rfl⟩

end Lawful

/-- A computation with a state agrees with a value if, from every state with the
invariant, it finds the value and leaves a state with the invariant. -/
def ofInvariant {σ : Type} (invariant : σ → Prop) : Agreement (StateT σ Id) Id where
  holds related left right := ∀ state, invariant state →
    related (left.run state).1 (right : Id _).run ∧ invariant (left.run state).2
  holds_pure same _ kept := ⟨same, kept⟩
  holds_bind := by
    intro α β α' β' related related' left right leftNext rightNext first next state kept
    obtain ⟨same, keptAfter⟩ := first state kept
    exact next _ _ same _ keptAfter
  holds_log _ _ kept := ⟨rfl, kept⟩

end Agreement

end HfsPlus
