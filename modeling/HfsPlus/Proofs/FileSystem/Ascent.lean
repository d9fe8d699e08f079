import HfsPlus.Proofs.FileSystem.Threads

/-!
# Where threads lead

The threads of a catalog are read off the disk, and nothing ties them together: each number may
have any other for its parent. An ascent goes from a number to the parent that its thread names,
and on from there, until it comes to the root folder or cannot go on, since there is no thread or
the thread leads above the root folder. It does one of the two, or it circles.

The path of a number is found by an ascent that is given up after a number of steps. No ascent that
ends meets a number twice, so one that has taken more steps than there are numbers with threads
circles. Hence nothing is given up that would have ended, as long as the catalog has as many
records as threads by its own account.
-/

namespace HfsPlus

namespace Catalog

section Definitions

variable (thread : UInt32 → Option CatalogThread)

/-- From a number the way leads on by its thread: the number is not that of the root folder, and
its thread does not lead above it. -/
structure Leads (cnid : UInt32) (found : CatalogThread) : Prop where
  below : cnid ≠ rootFolderId
  threaded : thread cnid = some found
  inside : found.parentId ≠ rootParentId

/-- The way from a number leads by some threads to another number. The numbers that are left are
noted with their threads. -/
inductive Ascent : (start : UInt32) → List (UInt32 × CatalogThread) → (top : UInt32) → Prop
  | here {start : UInt32} : Ascent start [] start
  | step {start top : UInt32} {found : CatalogThread} {later : List (UInt32 × CatalogThread)} :
    Leads thread start found → Ascent found.parentId later top →
    Ascent start ((start, found) :: later) top

/-- From a number below the root folder no way leads on: it has no thread, or a thread that leads
above the root folder. -/
def Lost (top : UInt32) : Prop :=
  top ≠ rootFolderId ∧ ∀ found, thread top = some found → found.parentId = rootParentId

/-- A way that has come to a number ends there. -/
def Ends (top : UInt32) : Prop := top = rootFolderId ∨ Lost thread top

/-- The way from a number leads to one from which it leads back to the same. -/
def Circles (start : UInt32) : Prop :=
  ∃ before middle round, Ascent thread start before middle ∧ round ≠ [] ∧
    Ascent thread middle round middle

end Definitions

/-- The path that is spelled by the names that were met on the way up. -/
def spelled (steps : List (UInt32 × CatalogThread)) : String :=
  "/" ++ "/".intercalate (steps.map fun step => step.2.name.toPosix).reverse

/-- What the way from a number says of its path: that there is one, if it ends at the root folder,
or none, if it ends before, or that it circles. -/
inductive Decides (thread : UInt32 → Option CatalogThread) (cnid : UInt32) :
    Except Error (Option String) → Prop
  | reached {steps : List (UInt32 × CatalogThread)} :
    Ascent thread cnid steps rootFolderId → Decides thread cnid (.ok (some (spelled steps)))
  | lost {steps : List (UInt32 × CatalogThread)} {top : UInt32} :
    Ascent thread cnid steps top → Lost thread top → Decides thread cnid (.ok none)
  | circles : Circles thread cnid → Decides thread cnid (.error (.invalid (.threadCycle cnid)))

section Ways

variable {thread : UInt32 → Option CatalogThread} {start middle top : UInt32}
variable {steps : List (UInt32 × CatalogThread)}

/-- The way leads on by one thread. -/
theorem Leads.unique {found other : CatalogThread} (leads : Leads thread start found)
    (also : Leads thread start other) : found = other :=
  Option.some.inj (leads.threaded.symm.trans also.threaded)

/-- Where a way ends it does not lead on. -/
theorem Ends.not_leads (ends : Ends thread top) (found : CatalogThread) :
    ¬ Leads thread top found := by
  intro leads
  rcases ends with root | lost
  · exact leads.below root
  · exact leads.inside (lost.2 found leads.threaded)

/-- From every number the way leads on, unless it ends there. -/
theorem leads_or_ends (thread : UInt32 → Option CatalogThread) (cnid : UInt32) :
    (∃ found, Leads thread cnid found) ∨ Ends thread cnid := by
  by_cases root : cnid = rootFolderId
  · exact .inr (.inl root)
  by_cases lost : Lost thread cnid
  · exact .inr (.inr lost)
  obtain ⟨found, threaded, inside⟩ : ∃ found, thread cnid = some found ∧
      found.parentId ≠ rootParentId := by
    simpa [Lost, root] using lost
  exact .inl ⟨found, root, threaded, inside⟩

/-- Ways follow each other. -/
theorem Ascent.append {later : List (UInt32 × CatalogThread)}
    (first : Ascent thread start steps middle) (second : Ascent thread middle later top) :
    Ascent thread start (steps ++ later) top := by
  induction first with
  | here => exact second
  | step leads _ inductionHypothesis => exact .step leads (inductionHypothesis second)

/-- A way leads by each of its numbers. -/
theorem Ascent.split {before later : List (UInt32 × CatalogThread)}
    (ascent : Ascent thread start (before ++ later) top) :
    ∃ middle, Ascent thread start before middle ∧ Ascent thread middle later top := by
  induction before generalizing start with
  | nil => exact ⟨start, .here, ascent⟩
  | cons step before inductionHypothesis =>
    cases ascent with
    | step leads rest =>
      obtain ⟨middle, first, second⟩ := inductionHypothesis rest
      exact ⟨middle, .step leads first, second⟩

/-- A way that goes on starts at its first number. -/
theorem Ascent.start_eq {step : UInt32 × CatalogThread}
    (ascent : Ascent thread start (step :: steps) top) : step.1 = start := by
  cases ascent with
  | step leads rest => rfl

/-- A way that ends goes on from wherever it is met before. -/
theorem Ascent.rest {whole : List (UInt32 × CatalogThread)}
    (ascent : Ascent thread start steps middle) (toEnd : Ascent thread start whole top)
    (ends : Ends thread top) :
    ∃ behind, whole = steps ++ behind ∧ Ascent thread middle behind top := by
  induction ascent generalizing whole with
  | here => exact ⟨whole, rfl, toEnd⟩
  | step leads _ inductionHypothesis =>
    cases toEnd with
    | here => exact absurd leads (ends.not_leads _)
    | step also rest =>
      obtain rfl := leads.unique also
      obtain ⟨behind, rfl, further⟩ := inductionHypothesis rest
      exact ⟨behind, rfl, further⟩

/-- There is one end, and one way to it. -/
theorem Ascent.unique {others : List (UInt32 × CatalogThread)} {other : UInt32}
    (ascent : Ascent thread start steps top) (ends : Ends thread top)
    (also : Ascent thread start others other) (otherEnds : Ends thread other) :
    steps = others ∧ top = other := by
  obtain ⟨behind, rfl, further⟩ := ascent.rest also otherEnds
  cases further with
  | here => exact ⟨(List.append_nil _).symm, rfl⟩
  | step leads _ => exact absurd leads (ends.not_leads _)

/-- A way that circles does not end: it would end sooner if the circle were left out. -/
theorem Circles.not_ends (circles : Circles thread start) (ends : Ends thread top) :
    ¬ Ascent thread start steps top := by
  intro ascent
  obtain ⟨before, middle, round, first, nonempty, again⟩ := circles
  obtain ⟨behind, -, further⟩ := first.rest ascent ends
  have same := (again.append further).unique ends further ends
  exact nonempty (List.append_left_eq_self.mp same.1)

/-- As long as no number is met twice, the numbers of a way differ; else the way from the number up
to where it is met again is a circle. -/
theorem Ascent.nodup_or_circles (ascent : Ascent thread start steps top) :
    (steps.map Prod.fst).Nodup ∨ Circles thread start := by
  induction ascent with
  | here => exact .inl List.nodup_nil
  | @step start top found later leads rest inductionHypothesis =>
    by_cases again : start ∈ later.map Prod.fst
    · obtain ⟨other, member, same⟩ := List.mem_map.mp again
      obtain ⟨before, behind, rfl⟩ := List.append_of_mem member
      obtain ⟨middle, first, second⟩ := rest.split
      obtain rfl : start = middle := same.symm.trans second.start_eq
      exact .inr ⟨[], start, (start, found) :: before, .here, List.cons_ne_nil _ _,
        .step leads first⟩
    · rcases inductionHypothesis with distinct | ⟨before, middle, round, first, nonempty, back⟩
      · exact .inl (List.nodup_cons.mpr ⟨again, distinct⟩)
      · exact .inr ⟨_, middle, round, .step leads first, nonempty, back⟩

/-- Each number that a way leaves has a thread. -/
theorem Ascent.threaded (ascent : Ascent thread start steps top) :
    ∀ step ∈ steps, thread step.1 = some step.2 := by
  induction ascent with
  | here => exact fun _ member => (List.not_mem_nil member).elim
  | step leads _ inductionHypothesis =>
    intro step member
    rcases List.mem_cons.mp member with rfl | later
    · exact leads.threaded
    · exact inductionHypothesis step later

/-- A way of more steps than there are numbers with threads circles. -/
theorem Ascent.length_le_or_circles {numbers : List UInt32}
    (complete : ∀ cnid found, thread cnid = some found → cnid ∈ numbers)
    (ascent : Ascent thread start steps top) :
    steps.length ≤ numbers.length ∨ Circles thread start := by
  refine ascent.nodup_or_circles.imp_left fun distinct => ?_
  have within : steps.map Prod.fst ⊆ numbers := by
    intro cnid member
    obtain ⟨step, inside, rfl⟩ := List.mem_map.mp member
    exact complete _ _ (ascent.threaded step inside)
  simpa using (List.Nodup.subperm distinct within).length_le

/-- A way comes to an end, or it can be followed for as many steps as one likes. -/
theorem Ascent.ends_or_long (thread : UInt32 → Option CatalogThread) (length : Nat)
    (start : UInt32) :
    (∃ steps top, Ascent thread start steps top ∧ Ends thread top) ∨
      ∃ steps top, Ascent thread start steps top ∧ steps.length = length ∧ top ≠ rootFolderId := by
  induction length generalizing start with
  | zero =>
    by_cases root : start = rootFolderId
    · exact .inl ⟨[], start, .here, .inl root⟩
    · exact .inr ⟨[], start, .here, rfl, root⟩
  | succ length inductionHypothesis =>
    rcases leads_or_ends thread start with ⟨found, leads⟩ | ends
    · rcases inductionHypothesis found.parentId with
        ⟨steps, top, rest, ends⟩ | ⟨steps, top, rest, long, further⟩
      · exact .inl ⟨_, top, .step leads rest, ends⟩
      · exact .inr ⟨_, top, .step leads rest, congrArg Nat.succ long, further⟩
    · exact .inl ⟨[], start, .here, ends⟩

/-- The way from a number says one thing of its path. -/
theorem Decides.unique {cnid : UInt32} {outcome other : Except Error (Option String)}
    (decides : Decides thread cnid outcome) (also : Decides thread cnid other) :
    outcome = other := by
  cases decides with
  | reached ascent =>
    cases also with
    | reached other => rw [(ascent.unique (.inl rfl) other (.inl rfl)).1]
    | lost other lost => exact absurd (ascent.unique (.inl rfl) other (.inr lost)).2.symm lost.1
    | circles circles => exact absurd ascent (circles.not_ends (.inl rfl))
  | lost ascent lost =>
    cases also with
    | reached other => exact absurd (ascent.unique (.inr lost) other (.inl rfl)).2 lost.1
    | lost _ _ => rfl
    | circles circles => exact absurd ascent (circles.not_ends (.inr lost))
  | circles circles =>
    cases also with
    | reached other => exact absurd other (circles.not_ends (.inl rfl))
    | lost other lost => exact absurd other (circles.not_ends (.inr lost))
    | circles _ => rfl

/-- What is decided of a path is what the way says. -/
theorem Decides.eq_iff {cnid : UInt32} {outcome other : Except Error (Option String)}
    (decides : Decides thread cnid outcome) : outcome = other ↔ Decides thread cnid other :=
  ⟨fun same => same ▸ decides, decides.unique⟩

/-- There is a path where the way comes to the root folder. -/
theorem decides_path {cnid : UInt32} {path : String} :
    Decides thread cnid (.ok (some path)) ↔
      ∃ steps, Ascent thread cnid steps rootFolderId ∧ path = spelled steps := by
  constructor
  · rintro ⟨ascent⟩
    exact ⟨_, ascent, rfl⟩
  · rintro ⟨steps, ascent, rfl⟩
    exact .reached ascent

/-- There is none where the way is lost. -/
theorem decides_none {cnid : UInt32} :
    Decides thread cnid (.ok none) ↔
      ∃ steps top, Ascent thread cnid steps top ∧ Lost thread top := by
  constructor
  · rintro (_ | ⟨ascent, lost⟩)
    exact ⟨_, _, ascent, lost⟩
  · rintro ⟨steps, top, ascent, lost⟩
    exact .lost ascent lost

/-- A circle is reported where the way circles. -/
theorem decides_cycle {cnid : UInt32} :
    Decides thread cnid (.error (.invalid (.threadCycle cnid))) ↔ Circles thread cnid := by
  constructor
  · intro decides
    cases decides with
    | circles circles => exact circles
  · exact .circles

/-- A circle is reported exactly where the way does not end. -/
theorem Decides.cycle_iff {cnid : UInt32} {outcome : Except Error (Option String)}
    (decides : Decides thread cnid outcome) :
    outcome = .error (.invalid (.threadCycle cnid)) ↔
      ¬ ∃ steps top, Ascent thread cnid steps top ∧ Ends thread top := by
  cases decides with
  | reached ascent => exact iff_of_false nofun fun endless => endless ⟨_, _, ascent, .inl rfl⟩
  | lost ascent lost => exact iff_of_false nofun fun endless => endless ⟨_, _, ascent, .inr lost⟩
  | circles circles =>
    refine iff_of_true rfl ?_
    rintro ⟨steps, top, ascent, ends⟩
    exact circles.not_ends ends ascent

end Ways

section Climbs

variable {tree : Tree CatalogKey CatalogRecord} {thread : UInt32 → Option CatalogThread}
variable {cnid start top : UInt32} {steps : List (UInt32 × CatalogThread)}

/-- The path of a number is spelled by the names that its climb finds. -/
theorem pathOf_run (tree : Tree CatalogKey CatalogRecord) (cnid : UInt32) :
    ((tree.direct (m := Id)).pathOf cnid).run =
      ((tree.direct (m := Id)).climb cnid (tree.header.leafRecords.toNat + 2) cnid []).run.map
        (Option.map fun names => "/" ++ "/".intercalate names) := by
  have bound : (tree.direct (m := Id)).climbBound = tree.header.leafRecords.toNat + 2 := rfl
  rw [Access.pathOf, run_bind_direct, bound]
  rcases ((tree.direct (m := Id)).climb cnid _ cnid []).run with cause | names <;> rfl

/-- At the root folder a climb is at its end. -/
theorem climb_root (catalog : Access Id CatalogKey CatalogRecord) (start : UInt32) (left : Nat)
    (names : List String) : catalog.climb start left rootFolderId names = pure (some names) := by
  cases left with
  | zero => rw [Access.climb, if_pos rfl]
  | succ left => rw [Access.climb, if_pos rfl]

variable (threads : ∀ number, ((tree.direct (m := Id)).findThread number).run = .ok (thread number))
include threads

/-- A climb goes the way of the threads, and puts the names before those already met. Induct over
the way. -/
theorem climb_ascent (ascent : Ascent thread start steps top) (left : Nat) (names : List String) :
    ((tree.direct (m := Id)).climb cnid (steps.length + left) start names).run =
      ((tree.direct (m := Id)).climb cnid left top
        ((steps.map fun step => step.2.name.toPosix).reverse ++ names)).run := by
  induction ascent generalizing names with
  | here => rw [List.length_nil, Nat.zero_add]; rfl
  | @step start top found later leads _ inductionHypothesis =>
    rw [List.length_cons, Nat.succ_add, Access.climb, if_neg leads.below, run_bind_direct,
      threads, leads.threaded]
    dsimp only [Except.bind]
    rw [if_neg leads.inside, inductionHypothesis]
    simp

/-- A way that leads to the root folder spells a path. -/
theorem pathOf_of_root (ascent : Ascent thread cnid steps rootFolderId)
    (enough : steps.length ≤ tree.header.leafRecords.toNat + 2) :
    ((tree.direct (m := Id)).pathOf cnid).run = .ok (some (spelled steps)) := by
  obtain ⟨left, total⟩ := Nat.exists_eq_add_of_le enough
  rw [pathOf_run, total, climb_ascent threads ascent, climb_root, List.append_nil]
  rfl

/-- Where the way is lost a climb finds no path. -/
theorem pathOf_of_lost (ascent : Ascent thread cnid steps top) (lost : Lost thread top)
    (enough : steps.length < tree.header.leafRecords.toNat + 2) :
    ((tree.direct (m := Id)).pathOf cnid).run = .ok none := by
  obtain ⟨left, total⟩ := Nat.exists_eq_add_of_lt enough
  rw [pathOf_run, total, Nat.add_assoc, climb_ascent threads ascent, Access.climb,
    if_neg lost.1, run_bind_direct, threads]
  cases threaded : thread top with
  | none => rfl
  | some found =>
    dsimp only [Except.bind]
    rw [if_pos (lost.2 found threaded)]
    rfl

/-- A climb that has taken all its steps is given up, unless it is at the root folder. -/
theorem pathOf_of_long (ascent : Ascent thread cnid steps top) (further : top ≠ rootFolderId)
    (all : steps.length = tree.header.leafRecords.toNat + 2) :
    ((tree.direct (m := Id)).pathOf cnid).run = .error (.invalid (.threadCycle cnid)) := by
  rw [pathOf_run, ← all, ← Nat.add_zero steps.length, climb_ascent threads ascent, Access.climb,
    if_neg further]
  rfl

/-- The search for the path of a number ends as the way from the number says. -/
theorem decides_pathOf {numbers : List UInt32}
    (complete : ∀ number found, thread number = some found → number ∈ numbers)
    (few : numbers.length ≤ tree.header.leafRecords.toNat) (cnid : UInt32) :
    Decides thread cnid ((tree.direct (m := Id)).pathOf cnid).run := by
  rcases Ascent.ends_or_long thread (tree.header.leafRecords.toNat + 2) cnid with
    ⟨steps, top, ascent, ends⟩ | ⟨steps, top, ascent, all, further⟩
  · have straight : ¬ Circles thread cnid := fun circles => circles.not_ends ends ascent
    have short := (ascent.length_le_or_circles complete).resolve_right straight
    rcases ends with rfl | lost
    · rw [pathOf_of_root threads ascent (by omega)]
      exact .reached ascent
    · rw [pathOf_of_lost threads ascent lost (by omega)]
      exact .lost ascent lost
  · have circles := (ascent.length_le_or_circles complete).resolve_left (by omega)
    rw [pathOf_of_long threads ascent further all]
    exact .circles circles

end Climbs

section Counting

variable {m : Type → Type} [Monad m]

/-- Climb as the catalog is climbed, by whatever finds the threads. -/
def climbBy (find : UInt32 → ExceptT Error m (Option CatalogThread)) (start : UInt32) :
    (left : Nat) → (current : UInt32) → (names : List String) →
      ExceptT Error m (Option (List String))
  | left, current, names =>
    if current = rootFolderId then return some names
    else
      match left with
      | 0 => throw (.invalid (.threadCycle start))
      | left + 1 => do
        match ← find current with
        | none => return none
        | some thread =>
          if thread.parentId = rootParentId then return none
          else climbBy find start left thread.parentId (thread.name.toPosix :: names)

/-- A catalog is climbed by finding its threads. -/
theorem climb_eq_climbBy (catalog : Access m CatalogKey CatalogRecord) (start : UInt32)
    (left : Nat) (current : UInt32) (names : List String) :
    catalog.climb start left current names =
      climbBy catalog.findThread start left current names := by
  induction left generalizing current names with
  | zero => rw [Access.climb, climbBy]
  | succ left inductionHypothesis =>
    rw [Access.climb, climbBy]
    refine if_congr Iff.rfl rfl (bind_congr fun found => ?_)
    cases found with
    | none => rfl
    | some thread => exact if_congr Iff.rfl rfl (inductionHypothesis _ _)

/-- Find threads in the same way, and note the number of each that is looked for, the last
first. -/
def asking (find : UInt32 → ExceptT Error m (Option CatalogThread)) (cnid : UInt32) :
    ExceptT Error (StateT (List UInt32) m) (Option CatalogThread) := do
  modifyThe (List UInt32) (cnid :: ·)
  ExceptT.mk (StateT.lift (find cnid).run)

/-- Looking for a thread notes its number, and changes no answers. -/
theorem asking_run (find : UInt32 → ExceptT Error Id (Option CatalogThread)) (cnid : UInt32)
    (noted : List UInt32) : (asking find cnid).run.run noted = ((find cnid).run, cnid :: noted) :=
  rfl

/-- A climb looks for no more threads than it may take steps, whatever it finds, and that it is
noted changes nothing. Induct over the steps that are left. -/
theorem climbBy_asking (find : UInt32 → ExceptT Error Id (Option CatalogThread)) (start : UInt32)
    (left : Nat) (current : UInt32) (names : List String) (noted : List UInt32) :
    let ended := (climbBy (asking find) start left current names).run.run noted
    ended.1 = (climbBy find start left current names).run ∧
      ended.2.length ≤ noted.length + left := by
  induction left generalizing current names noted with
  | zero =>
    rw [climbBy, climbBy]
    by_cases root : current = rootFolderId
    · rw [if_pos root, if_pos root]
      exact ⟨rfl, Nat.le_refl _⟩
    · rw [if_neg root, if_neg root]
      exact ⟨rfl, Nat.le_refl _⟩
  | succ left inductionHypothesis =>
    rw [climbBy, climbBy]
    by_cases root : current = rootFolderId
    · rw [if_pos root, if_pos root]
      exact ⟨rfl, Nat.le_add_right _ _⟩
    rw [if_neg root, if_neg root, run_bind, run_bind_direct, asking_run]
    have more : (current :: noted).length + left = noted.length + (left + 1) := by
      rw [List.length_cons]
      omega
    have one : (current :: noted).length ≤ noted.length + (left + 1) := by
      rw [List.length_cons]
      omega
    rcases (find current).run with cause | _ | found
    · exact ⟨rfl, one⟩
    · exact ⟨rfl, one⟩
    · dsimp only [Except.bind]
      by_cases above : found.parentId = rootParentId
      · rw [if_pos above, if_pos above]
        exact ⟨rfl, one⟩
      · rw [if_neg above, if_neg above, ← more]
        exact inductionHypothesis _ _ _

/-- Climb from a number while noting whose threads are looked for. -/
def notedClimb (tree : Tree CatalogKey CatalogRecord) (cnid : UInt32) :
    Except Error (Option (List String)) × List UInt32 :=
  (climbBy (asking (tree.direct (m := Id)).findThread) cnid
    (tree.direct (m := Id)).climbBound cnid []).run.run []

end Counting

section Holding

variable {tree : Tree CatalogKey CatalogRecord} {records : List (CatalogKey × CatalogRecord)}
variable {caseSensitive : Bool} {cnid : UInt32}

/-- The thread of a number among some records. -/
def threadIn (caseSensitive : Bool) (records : List (CatalogKey × CatalogRecord))
    (cnid : UInt32) : Option CatalogThread :=
  (records.find? fun record => (compareKeys caseSensitive record.1 (.thread cnid)).isEq).bind
    fun record => record.2.thread?

/-- Only the number of a record's parent has a thread among the records. -/
theorem parent_of_threadIn {found : CatalogThread}
    (threaded : threadIn caseSensitive records cnid = some found) :
    cnid ∈ records.map fun record => record.1.parentId := by
  obtain ⟨record, first, _⟩ := Option.bind_eq_some_iff.mp threaded
  have equal : compareKeys caseSensitive record.1 (.thread cnid) = .eq := by
    simpa using List.find?_some first
  exact List.mem_map.mpr ⟨record, List.mem_of_find?_eq_some first, parentId_of_compareKeys equal⟩

/-- In a well-formed catalog every look-up of a thread comes to a result. -/
theorem findThread_direct (schema : tree.schema = schema caseSensitive)
    (holds : tree.Holds records) (cnid : UInt32) :
    ((tree.direct (m := Id)).findThread cnid).run =
      .ok (threadIn caseSensitive records cnid) := by
  have ordered : Std.TransCmp tree.schema.compare := by
    rw [schema]
    exact inferInstanceAs (Std.TransCmp (compareKeys caseSensitive))
  rw [Access.findThread, run_bind_direct, holds.find_direct, schema]
  rfl

end Holding

end Catalog

namespace FileSystem

variable {system : FileSystem} {tree : Tree CatalogKey CatalogRecord}

/-- **Ascents decide paths.** Take a catalog in which every look-up of a thread comes to a result,
and which counts as many records as there are numbers with threads, or more. A number has the
path that is spelled by the names on its way up, if the way comes to the root folder; it has none
if the way is lost before; and a circle is reported if neither happens, which is so exactly if
there is one on the way. In any catalog the search for a path comes to an end, and whatever the
look-ups come to, there are not many more of them than the catalog counts records. This holds
whatever was asked before and however many nodes are cached. -/
theorem ascents_decide_paths (opened : system.catalogTree = .ok tree) (cnid : UInt32)
    (capacity : Nat) (queries : List Query) :
    let inspection := system.remembering (m := Id)
    let history := ((inspection.answers queries).run (.empty capacity)).2
    let outcome := ((inspection.pathOf cnid).run.run history).1
    (∀ (thread : UInt32 → Option CatalogThread) (numbers : List UInt32),
      (∀ number, ((tree.direct (m := Id)).findThread number).run = .ok (thread number)) →
      (∀ number found, thread number = some found → number ∈ numbers) →
      numbers.length ≤ tree.header.leafRecords.toNat →
      (∀ path, outcome = .ok (some path) ↔
        ∃ steps, Catalog.Ascent thread cnid steps rootFolderId ∧ path = Catalog.spelled steps) ∧
      (outcome = .ok none ↔
        ∃ steps top, Catalog.Ascent thread cnid steps top ∧ Catalog.Lost thread top) ∧
      (outcome = .error (.invalid (.threadCycle cnid)) ↔
        ¬ ∃ steps top, Catalog.Ascent thread cnid steps top ∧
          (top = rootFolderId ∨ Catalog.Lost thread top)) ∧
      (outcome = .error (.invalid (.threadCycle cnid)) ↔ Catalog.Circles thread cnid)) ∧
    outcome = (Catalog.notedClimb tree cnid).1.map
      (Option.map fun names => "/" ++ "/".intercalate names) ∧
    (Catalog.notedClimb tree cnid).2.length ≤ tree.header.leafRecords.toNat + 3 := by
  intro inspection history outcome
  have direct : outcome = ((tree.direct (m := Id)).pathOf cnid).run :=
    asked_of_opened opened (system.remembering_direct.pathOf cnid) capacity queries
  refine ⟨?_, ?_, ?_⟩
  · intro thread numbers threads complete few
    have decides := Catalog.decides_pathOf threads complete few cnid
    rw [← direct] at decides
    refine ⟨fun path => ?_, ?_, decides.cycle_iff, ?_⟩
    · exact decides.eq_iff.trans Catalog.decides_path
    · exact decides.eq_iff.trans Catalog.decides_none
    · exact decides.eq_iff.trans Catalog.decides_cycle
  · rw [direct, Catalog.pathOf_run, Catalog.climb_eq_climbBy]
    exact congrArg (Except.map _) (Catalog.climbBy_asking _ cnid _ cnid [] []).1.symm
  · have few := (Catalog.climbBy_asking (tree.direct (m := Id)).findThread cnid
      (tree.header.leafRecords.toNat + 2) cnid [] []).2
    exact Nat.le_trans few (by simp)

section Sample

/-- The threads of the misled volume. -/
def misledThread (cnid : UInt32) : Option CatalogThread :=
  Catalog.threadIn false misledRecords cnid

/-- From 23 the way leads to a circle of two numbers. -/
theorem misled_circles : Catalog.Circles misledThread 23 := by
  have first : Catalog.Leads misledThread 23 ⟨16, .ofText "z"⟩ :=
    ⟨by decide, by decide +kernel, by decide⟩
  have up : Catalog.Leads misledThread 16 ⟨17, .ofText "x"⟩ :=
    ⟨by decide, by decide +kernel, by decide⟩
  have back : Catalog.Leads misledThread 17 ⟨16, .ofText "y"⟩ :=
    ⟨by decide, by decide +kernel, by decide⟩
  exact ⟨_, 16, _, .step first .here, List.cons_ne_nil _ _, .step up (.step back .here)⟩

/-- The file has a path, a number without a thread has none, and a circle is reported although it
starts further up. -/
theorem ascents_decide_paths_misled :
    let pathOf (cnid : UInt32) :=
      (((misled.remembering (m := Id)).pathOf cnid).run.run (.empty 2)).1
    (∃ tree, misled.catalogTree = .ok tree ∧
      ∀ number, ((tree.direct (m := Id)).findThread number).run = .ok (misledThread number)) ∧
      pathOf 20 = .ok (some "/a") ∧ pathOf 24 = .ok none ∧
      pathOf 23 = .error (.invalid (.threadCycle 23)) := by
  intro pathOf
  obtain ⟨tree, opened, header, holds⟩ := misled_catalog
  have schema : tree.schema = Catalog.schema false := by
    rw [schema_of_catalogTree opened, header]
    rfl
  have threads := Catalog.findThread_direct schema holds
  have decided (cnid : UInt32) :=
    (ascents_decide_paths opened cnid 2 []).1 misledThread _ threads
      (fun _ _ => Catalog.parent_of_threadIn) (by rw [header]; decide)
  refine ⟨⟨tree, opened, threads⟩, ?_, ?_, ?_⟩
  · have named : Catalog.Leads misledThread 20 ⟨2, .ofText "a"⟩ :=
      ⟨by decide, by decide +kernel, by decide⟩
    exact ((decided 20).1 _).mpr ⟨_, .step named .here, by decide +kernel⟩
  · have missing : misledThread 24 = none := by decide +kernel
    have lost : Catalog.Lost misledThread 24 := ⟨by decide, by simp [missing]⟩
    exact (decided 24).2.1.mpr ⟨_, _, .here, lost⟩
  · exact (decided 23).2.2.2.mpr misled_circles

end Sample

end FileSystem

end HfsPlus
