import HfsPlus.Proofs.Fork.Runs
import HfsPlus.Proofs.Outcome

/-!
# How a fork grows

A fork fetches overflow records one at a time. `nextRecord` says which one comes next, and
`withRecord` what the fork is with it. To look a block up and to load everything is to
`pursue` an answer: repeat this step until the fork knows the answer, until all its blocks
are known, or until no record follows. Each record maps at least one block more, so the
pursuit ends, and the number of steps that the look-up and the loading allow themselves is
never reached.
-/

namespace HfsPlus.Fork

/-- The fork with one more record. -/
def withRecord (fork : Fork) (record : ExtentRecord) : Fork :=
  { fork with
    extents := fork.extents.addRecord record
    overflowRecords := fork.overflowRecords + 1 }

/-- A further record does not change how many blocks the fork has. -/
@[simp] theorem withRecord_totalBlocks (fork : Fork) (record : ExtentRecord) :
    (fork.withRecord record).totalBlocks = fork.totalBlocks := rfl

/-- How many blocks of the fork are not known yet. -/
def missing (fork : Fork) : Nat := fork.totalBlocks - fork.mappedBlocks

/-- All blocks are known if none is missing. -/
theorem isFullyMapped_iff (fork : Fork) : fork.isFullyMapped = true ↔ fork.missing = 0 := by
  simp [isFullyMapped, missing, Nat.sub_eq_zero_iff_le]

/-- A record in use leaves fewer blocks missing. -/
theorem missing_withRecord {fork : Fork} {record : ExtentRecord} (used : record.used ≠ [])
    (notFull : ¬ fork.isFullyMapped = true) : (fork.withRecord record).missing < fork.missing := by
  have more : (fork.withRecord record).mappedBlocks = fork.mappedBlocks + blocksIn record.used :=
    ExtentList.mappedBlocks_addRecord fork.extents record
  have positive := ExtentRecord.blocksIn_used_pos used
  rw [isFullyMapped_iff] at notFull
  simp only [missing, withRecord_totalBlocks, more] at notFull ⊢
  omega

section Steps

variable (overflow : OverflowSource Id)

/-- The overflow record that a fork fetches next. There is none if none is kept under the
first unmapped block, or if that one maps nothing. -/
def nextRecord (fork : Fork) : Except Error (Option ExtentRecord) :=
  if UInt32.size ≤ fork.mappedBlocks then .ok none
  else
    match (overflow fork.fileId fork.kind (UInt32.ofNat fork.mappedBlocks)).run with
    | .error cause => .error cause
    | .ok none => .ok none
    | .ok (some record) => if record.used.isEmpty then .ok none else .ok (some record)

/-- The next record is the one that is kept under the first unmapped block, and it maps a
block. -/
theorem nextRecord_eq_some {fork : Fork} {record : ExtentRecord} :
    nextRecord overflow fork = .ok (some record) ↔
      fork.mappedBlocks < UInt32.size ∧
      (overflow fork.fileId fork.kind (UInt32.ofNat fork.mappedBlocks)).run = .ok (some record) ∧
      record.used ≠ [] := by
  unfold nextRecord
  by_cases beyond : UInt32.size ≤ fork.mappedBlocks
  · simp [beyond, Nat.not_lt.mpr beyond]
  · rcases (overflow fork.fileId fork.kind (UInt32.ofNat fork.mappedBlocks)).run with
      cause | _ | other
    · simp [beyond]
    · simp only [beyond, ↓reduceIte]
      constructor
      · rintro ⟨⟩
      · rintro ⟨_, ⟨⟩, _⟩
    · by_cases unused : other.used = []
      · simp only [beyond, ↓reduceIte, unused, List.isEmpty_nil]
        constructor
        · rintro ⟨⟩
        · rintro ⟨_, ⟨⟩, used⟩
          exact absurd unused used
      · simp only [beyond, ↓reduceIte, List.isEmpty_iff, unused]
        constructor
        · rintro ⟨⟩
          exact ⟨Nat.not_le.mp beyond, rfl, unused⟩
        · rintro ⟨_, same, _⟩
          exact same

/-- A next record is in use. -/
theorem used_of_nextRecord {fork : Fork} {record : ExtentRecord}
    (next : nextRecord overflow fork = .ok (some record)) : record.used ≠ [] :=
  ((nextRecord_eq_some overflow).mp next).2.2

section Pursuit

variable {α : Type} (known : Fork → Option (Except Error α)) (exhausted : Fork → Except Error α)

/-- Fetch records until the fork knows an answer. If it does not, and all its blocks are
known or no record follows, the answer is another one. -/
def pursue (fork : Fork) : Except Error α × Fork :=
  match known fork with
  | some answer => (answer, fork)
  | none =>
    if _full : fork.isFullyMapped then (exhausted fork, fork)
    else
      match _next : nextRecord overflow fork with
      | .error cause => (.error cause, fork)
      | .ok none => (exhausted fork, fork)
      | .ok (some record) => pursue (fork.withRecord record)
termination_by fork.missing
decreasing_by exact missing_withRecord (used_of_nextRecord overflow _next) _full

variable {known exhausted} {fork : Fork}

/-- A fork that knows the answer is left as it is. -/
theorem pursue_known {answer : Except Error α} (answered : known fork = some answer) :
    pursue overflow known exhausted fork = (answer, fork) := by
  rw [pursue, answered]

/-- So is one of which all blocks are known. -/
theorem pursue_full (unanswered : known fork = none) (full : fork.isFullyMapped = true) :
    pursue overflow known exhausted fork = (exhausted fork, fork) := by
  rw [pursue, unanswered]
  exact dif_pos full

/-- So is one to which the source refuses the next record. -/
theorem pursue_refused {cause : Error} (unanswered : known fork = none)
    (notFull : ¬ fork.isFullyMapped = true) (next : nextRecord overflow fork = .error cause) :
    pursue overflow known exhausted fork = (.error cause, fork) := by
  rw [pursue, unanswered]
  simp only [notFull, Bool.false_eq_true, ↓reduceDIte]
  split <;> simp_all

/-- So is one that no record follows. -/
theorem pursue_ended (unanswered : known fork = none) (notFull : ¬ fork.isFullyMapped = true)
    (next : nextRecord overflow fork = .ok none) :
    pursue overflow known exhausted fork = (exhausted fork, fork) := by
  rw [pursue, unanswered]
  simp only [notFull, Bool.false_eq_true, ↓reduceDIte]
  split <;> simp_all

/-- Otherwise the pursuit goes on with one record more. -/
theorem pursue_withRecord {record : ExtentRecord} (unanswered : known fork = none)
    (notFull : ¬ fork.isFullyMapped = true)
    (next : nextRecord overflow fork = .ok (some record)) :
    pursue overflow known exhausted fork =
      pursue overflow known exhausted (fork.withRecord record) := by
  rw [pursue, unanswered]
  simp only [notFull, Bool.false_eq_true, ↓reduceDIte]
  split <;> simp_all

/-- A run that takes a step as a pursuit does, and ends as one where all blocks are known, is
a pursuit if it may take as many steps as blocks are missing. -/
theorem pursue_eq (run : Nat → Fork → Except Error α × Fork)
    (ended : ∀ fork, fork.isFullyMapped = true →
      run 0 fork = ((known fork).getD (exhausted fork), fork))
    (stepped : ∀ steps fork, run (steps + 1) fork =
      match known fork with
      | some answer => (answer, fork)
      | none =>
        if fork.isFullyMapped then (exhausted fork, fork)
        else
          match nextRecord overflow fork with
          | .error cause => (.error cause, fork)
          | .ok none => (exhausted fork, fork)
          | .ok (some record) => run steps (fork.withRecord record))
    {steps : Nat} (enough : fork.missing ≤ steps) :
    run steps fork = pursue overflow known exhausted fork := by
  induction steps generalizing fork with
  | zero =>
    have full := fork.isFullyMapped_iff.mpr (Nat.le_zero.mp enough)
    rw [ended fork full]
    cases answered : known fork with
    | some answer => exact (pursue_known overflow answered).symm
    | none => exact (pursue_full overflow answered full).symm
  | succ steps inductionHypothesis =>
    rw [stepped]
    cases answered : known fork with
    | some answer => exact (pursue_known overflow answered).symm
    | none =>
      dsimp only
      by_cases full : fork.isFullyMapped = true
      · rw [if_pos full, pursue_full overflow answered full]
      · rw [if_neg full]
        cases next : nextRecord overflow fork with
        | error cause => exact (pursue_refused overflow answered full next).symm
        | ok found =>
          cases found with
          | none => exact (pursue_ended overflow answered full next).symm
          | some record =>
            have less := missing_withRecord (used_of_nextRecord overflow next) full
            rw [pursue_withRecord overflow answered full next]
            exact inductionHypothesis (by omega)

end Pursuit

/-- What is done beside a fork leaves it as it is. -/
theorem run_beside {α β : Type} (action : ExceptT Error Id α)
    (next : α → ExceptT Error (StateT Fork Id) β) (fork : Fork) :
    (beside action >>= next).run.run fork =
      match action.run with
      | .ok value => (next value).run.run fork
      | .error cause => (.error cause, fork) := by
  have ran : (beside action).run.run fork = (action.run, fork) := rfl
  rw [run_bind, ran]
  rcases action.run with _ | _ <;> rfl

/-- Extending a fork appends the next record, if there is one. -/
theorem extend_run (fork : Fork) :
    (extend overflow).run.run fork =
      match nextRecord overflow fork with
      | .error cause => (.error cause, fork)
      | .ok none => (.ok false, fork)
      | .ok (some record) => (.ok true, fork.withRecord record) := by
  unfold extend nextRecord
  rw [run_get]
  by_cases beyond : UInt32.size ≤ fork.mappedBlocks
  · simp only [beyond, ↓reduceIte]
    rfl
  · simp only [beyond, ↓reduceIte]
    rw [run_beside]
    rcases (overflow fork.fileId fork.kind (UInt32.ofNat fork.mappedBlocks)).run with
      cause | _ | record
    · rfl
    · rfl
    · by_cases unused : record.used.isEmpty = true
      · simp only [unused, ↓reduceIte]
        rfl
      · simp only [unused]
        rfl

/-- Going on after extending a fork depends on what the next record is. -/
theorem extend_run_bind {α : Type} (next : Bool → ExceptT Error (StateT Fork Id) α) (fork : Fork) :
    (extend overflow >>= next).run.run fork =
      match nextRecord overflow fork with
      | .error cause => (.error cause, fork)
      | .ok none => (next false).run.run fork
      | .ok (some record) => (next true).run.run (fork.withRecord record) := by
  rw [run_bind, extend_run]
  rcases nextRecord overflow fork with cause | _ | record <;> rfl

/-- The answer that a fork knows to a look-up: nothing past its end, and the place of a
block that it maps. -/
def place? (block : Nat) (fork : Fork) : Option (Except Error (Option Mapping)) :=
  if fork.totalBlocks ≤ block then some (.ok none)
  else (fork.mapping? block).map fun mapping => .ok (some mapping)

/-- Looking a block up pursues its place. The test of the block is made once, before the loop, but
fetching changes nothing about it, so it may be made in each step, as a pursuit does. -/
theorem resolve_run (block : Nat) (fork : Fork) :
    (resolve overflow block).run.run fork =
      pursue overflow (place? block) (fun _ => .ok none) fork := by
  have started : (resolve overflow block).run.run fork =
      if fork.totalBlocks ≤ block then (.ok none, fork)
      else (resolveWithin overflow block fork.missing).run.run fork := by
    rw [resolve, run_get]
    split <;> rfl
  rw [started]
  refine pursue_eq overflow (fun records fork =>
    if fork.totalBlocks ≤ block then (.ok none, fork)
    else (resolveWithin overflow block records).run.run fork) ?_ ?_ (Nat.le_refl _)
  · intro fork _
    by_cases outside : fork.totalBlocks ≤ block
    · simp [place?, outside]
    · simp only [place?, outside, ↓reduceIte]
      rw [resolveWithin, run_get]
      cases fork.mapping? block <;> rfl
  · intro records fork
    by_cases outside : fork.totalBlocks ≤ block
    · simp [place?, outside]
    · simp only [place?, outside, ↓reduceIte, withRecord_totalBlocks]
      rw [resolveWithin, run_get]
      cases fork.mapping? block with
      | some mapping => rfl
      | none =>
        by_cases full : fork.isFullyMapped = true
        · simp only [full, ↓reduceIte, Option.map_none]
          rfl
        · simp only [full, Bool.false_eq_true, ↓reduceIte, Option.map_none]
          rw [extend_run_bind]
          rcases nextRecord overflow fork with cause | _ | record <;> rfl

/-- The answer that a fork knows to a loading: the number of records once all blocks are
known. -/
def loaded? (fork : Fork) : Option (Except Error Nat) :=
  if fork.isFullyMapped then some (.ok fork.overflowRecords) else none

/-- Loading all records pursues their number. -/
theorem loadAll_run (fork : Fork) :
    (loadAll overflow).run.run fork =
      pursue overflow loaded? (fun fork => .error (fork.unmapped fork.mappedBlocks)) fork := by
  have started : (loadAll overflow).run.run fork =
      (loadWithin overflow fork.missing).run.run fork := rfl
  rw [started]
  refine pursue_eq overflow (fun records fork => (loadWithin overflow records).run.run fork)
    ?_ ?_ (Nat.le_refl _)
  · intro fork full
    simp only [loaded?, full, ↓reduceIte, Option.getD_some]
    rfl
  · intro records fork
    rw [loadWithin, run_get]
    by_cases full : fork.isFullyMapped = true
    · simp only [loaded?, full, ↓reduceIte]
      rfl
    · simp only [loaded?, full, Bool.false_eq_true, ↓reduceIte]
      rw [extend_run_bind]
      rcases nextRecord overflow fork with cause | _ | record <;> rfl

end Steps

end HfsPlus.Fork
