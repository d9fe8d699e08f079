import HfsPlus.Error
import HfsPlus.Log
import Mathlib.Data.List.Forall2

/-!
# Outcomes of computations without surroundings

Where nothing surrounds a computation but a state, or not even that, running it gives
an outcome at once. The equations here take such a run one step further, and say what a
list of readings comes to.
-/

namespace HfsPlus

/-- What follows a step succeeds when both do. -/
theorem bind_eq_ok {ε α β : Type} {first : Except ε α} {next : α → Except ε β} {result : β} :
    (first >>= next) = .ok result ↔ ∃ value, first = .ok value ∧ next value = .ok result := by
  cases first <;> simp [bind, Except.bind]

/-- A step and what follows it fail when one of them does. -/
theorem bind_eq_error {ε α β : Type} {first : Except ε α} {next : α → Except ε β} {cause : ε} :
    (first >>= next) = .error cause ↔
      first = .error cause ∨ ∃ value, first = .ok value ∧ next value = .error cause := by
  cases first <;> simp [bind, Except.bind]

/-- A change of what was found changes no success into a failure, nor the other way. -/
theorem map_eq_ok {ε α β : Type} {outcome : Except ε α} {change : α → β} {result : β} :
    change <$> outcome = .ok result ↔ ∃ value, outcome = .ok value ∧ change value = result := by
  cases outcome <;> simp [Functor.map, Except.map]

/-- It changes no error. -/
theorem map_eq_error {ε α β : Type} {outcome : Except ε α} {change : α → β} {cause : ε} :
    change <$> outcome = .error cause ↔ outcome = .error cause := by
  cases outcome <;> simp [Functor.map, Except.map]

/-- What an outcome has, if it has anything, is that of a success. -/
theorem mem_toOption {ε α : Type} {outcome : Except ε α} {value : α} :
    value ∈ outcome.toOption ↔ outcome = .ok value := by
  cases outcome <;> simp [Except.toOption]

/-- An error is no success. -/
@[simp] theorem throw_ne_ok {ε α : Type} (cause : ε) (value : α) :
    ¬ (throw cause : Except ε α) = .ok value := by
  rintro ⟨⟩

/-- Nothing that follows an error makes it a success. -/
theorem throw_bind_ne_ok {ε α β : Type} (cause : ε) (next : α → Except ε β) (value : β) :
    ¬ ((throw cause : Except ε α) >>= next) = .ok value := by
  rintro ⟨⟩

/-- An error that is put in other words is no success either. -/
theorem mapError_eq_ok {ε δ α : Type} {outcome : Except ε α} {words : ε → δ} {value : α} :
    outcome.mapError words = .ok value ↔ outcome = .ok value := by
  cases outcome <;> simp [Except.mapError]

/-- An error that was put in other words was one before. -/
theorem mapError_eq_error {ε δ α : Type} {outcome : Except ε α} {words : ε → δ} {cause : δ} :
    outcome.mapError words = .error cause ↔ ∃ first, outcome = .error first ∧ words first = cause := by
  cases outcome <;> simp [Except.mapError]

/-- Readers that take a list item by item succeed exactly when each item is read, and
then the results stand in the order of the items. -/
theorem mapM_eq_ok {ε α β : Type} (read : α → Except ε β) (items : List α) (results : List β) :
    items.mapM read = .ok results ↔
      List.Forall₂ (fun item result => read item = .ok result) items results := by
  induction items generalizing results with
  | nil =>
    simp only [List.mapM_nil, List.forall₂_nil_left_iff]
    constructor
    · rintro ⟨⟩
      rfl
    · rintro rfl
      rfl
  | cons item items inductionHypothesis =>
    rw [List.mapM_cons]
    constructor
    · intro succeeded
      obtain ⟨result, first, others⟩ := bind_eq_ok.mp succeeded
      obtain ⟨later, rest, ⟨⟩⟩ := bind_eq_ok.mp others
      exact .cons first ((inductionHypothesis later).mp rest)
    · rintro (_ | ⟨first, rest⟩)
      exact bind_eq_ok.mpr ⟨_, first, bind_eq_ok.mpr ⟨_, (inductionHypothesis _).mpr rest, rfl⟩⟩

/-- Reading the places below a bound in order gives one result for each of them. -/
theorem range_mapM_ok {ε β : Type} {read : Nat → Except ε β} {count : Nat} {results : List β}
    (succeeded : (List.range count).mapM read = .ok results) :
    results.length = count ∧
      ∀ index (inside : index < results.length), read index = .ok (results[index]) := by
  have each := (mapM_eq_ok read _ results).mp succeeded
  have length : results.length = count := by simpa using each.length_eq.symm
  refine ⟨length, fun index inside => ?_⟩
  have here := each.get (by simpa [← length] using inside) inside
  simpa using here

/-- Folding over the members of some lists, one list after the other, is folding over all of
them. -/
theorem foldlM_flatMap {α β σ ε : Type} (step : σ → β → Except ε σ) (members : α → List β)
    (items : List α) (state : σ) :
    items.foldlM (fun state item => (members item).foldlM step state) state =
      (items.flatMap members).foldlM step state := by
  induction items generalizing state with
  | nil => rfl
  | cons item items inductionHypothesis =>
    rw [List.foldlM_cons, List.flatMap_cons, List.foldlM_append]
    exact congrArg _ (funext inductionHypothesis)

/-- Without a state, going on after a success is going on with its outcome. -/
theorem run_bind_direct {ε α β : Type} (first : ExceptT ε Id α) (next : α → ExceptT ε Id β) :
    (first >>= next).run = (first.run : Except ε α).bind fun value => (next value).run := by
  change ExceptT.bindCont next first.run = _
  cases (first.run : Except ε α) <;> rfl

/-- Without a state, what follows a step succeeds when both do. -/
theorem run_bind_eq_ok {ε α β : Type} {first : ExceptT ε Id α} {next : α → ExceptT ε Id β}
    {result : β} : (first >>= next).run = .ok result ↔
      ∃ value, first.run = .ok value ∧ (next value).run = .ok result := by
  rw [run_bind_direct]
  exact bind_eq_ok

/-- Without a state, a step and what follows it fail when one of them does. -/
theorem run_bind_eq_error {ε α β : Type} {first : ExceptT ε Id α} {next : α → ExceptT ε Id β}
    {cause : ε} : (first >>= next).run = .error cause ↔
      first.run = .error cause ∨ ∃ value, first.run = .ok value ∧ (next value).run = .error cause := by
  rw [run_bind_direct]
  exact bind_eq_error

/-- Two computations that start alike and show the same of what follows show the same. -/
theorem run_bind_map_congr {ε α β γ : Type} {first other : ExceptT ε Id α}
    {next otherNext : α → ExceptT ε Id β} {shown : β → γ} (start : first.run = other.run)
    (follow : ∀ value, first.run = .ok value →
      (next value).run.map shown = (otherNext value).run.map shown) :
    (first >>= next).run.map shown = (other >>= otherNext).run.map shown := by
  rw [run_bind_direct, run_bind_direct, ← start]
  rcases outcome : first.run with cause | value
  · rfl
  · exact follow value outcome

/-- Without a state, an event that is noted under some condition changes nothing. -/
theorem run_noted_if {α : Type} (event : Event) (next : ExceptT Error Id α) {condition : Prop}
    [Decidable condition] :
    (if condition then log event >>= fun _ => next else next).run = next.run := by
  split <;> rfl

section State

variable {ε σ α β : Type} (state : σ)

/-- The state that a computation looks at is the one it is run from. -/
theorem run_get (next : σ → ExceptT ε (StateT σ Id) α) :
    (getThe σ >>= next).run.run state = (next state).run.run state := rfl

/-- What is done after a state was set is run from that state. -/
theorem run_set (written : σ) (next : PUnit → ExceptT ε (StateT σ Id) α) :
    (set written >>= next).run.run state = (next ⟨⟩).run.run written := rfl

/-- Noting an event changes nothing. -/
theorem run_log (event : Event) (next : Unit → ExceptT ε (StateT σ Id) α) :
    (log event >>= next).run.run state = (next ()).run.run state := rfl

/-- A success that was known beforehand changes nothing. -/
theorem run_known (value : β) (next : β → ExceptT ε (StateT σ Id) α) :
    ((liftM (Except.ok value : Except ε β) : ExceptT ε (StateT σ Id) β) >>= next).run.run state =
      (next value).run.run state := rfl

/-- Going on after a success starts from the state that was left. -/
theorem run_bind (first : ExceptT ε (StateT σ Id) β) (next : β → ExceptT ε (StateT σ Id) α) :
    (first >>= next).run.run state =
      match first.run.run state with
      | (.ok value, after) => (next value).run.run after
      | (.error cause, after) => (.error cause, after) := by
  change (match first.run.run state with
    | (outcome, after) => (ExceptT.bindCont next outcome).run after) = _
  rcases first.run.run state with ⟨_ | _, _⟩ <;> rfl

end State

end HfsPlus
