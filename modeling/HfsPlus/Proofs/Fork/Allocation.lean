import HfsPlus.Proofs.Fork.Contents
import HfsPlus.Proofs.Fork.Mapped

/-!
# Reads and the allocation of a fork

A fork is given some number of blocks, and no block behind them is ever looked up. But a read
looks up only the block that it starts with and those that start a new run; a run that was
entered inside the allocation is used up to its end, wherever that is. So what is read keeps
to the allocation if no run leads across its end, or if the stream ends before it.

As long as reads start inside the allocation, it does not matter into which parts a read is
cut: a look-up in the middle of a run finds what is left of that run.
-/

namespace HfsPlus

namespace Fork

/-- A way to locate blocks finds none at or behind a bound, and inside the bound it finds
every block that is left of a run, together with those that are left behind it. -/
structure Steady (bound : Nat) (place : Nat → Except Error Mapping) : Prop where
  inside : ∀ {block mapping}, place block = .ok mapping → block < bound
  along : ∀ {block mapping}, place block = .ok mapping → ∀ ahead < mapping.blocksAvailable,
    block + ahead < bound → ∃ further, place (block + ahead) = .ok further ∧
      further.physicalBlock = mapping.physicalBlock + ahead ∧
      further.blocksAvailable = mapping.blocksAvailable - ahead

/-- What is read run by run, with blocks located without fetching anything. -/
def readThrough (window : Window) (blockSize : Nat) (sized : 0 < blockSize)
    (place : Nat → Except Error Mapping) (position left : Nat) : Except Error Bytes :=
  (readRuns window blockSize sized (fun block => liftM (place block)) position left :
    ExceptT Error Id Bytes).run

section Runs

variable {window : Window} {blockSize : Nat} {sized : 0 < blockSize}
variable {place : Nat → Except Error Mapping} {position left : Nat} {bytes : Bytes}

/-- Nothing has to be located to read nothing. -/
theorem readThrough_zero : readThrough window blockSize sized place position 0 = .ok [] := by
  rw [readThrough, readRuns, if_pos rfl]
  rfl

/-- A read locates the block that it starts in. -/
theorem located_of_readThrough (more : left ≠ 0)
    (delivered : readThrough window blockSize sized place position left = .ok bytes) :
    ∃ mapping, place (position / blockSize) = .ok mapping := by
  rw [readThrough, readRuns, if_neg more] at delivered
  obtain ⟨mapping, located, _⟩ := run_bind_eq_ok.mp delivered
  exact ⟨mapping, located⟩

/-- A read fails where the block that it starts in cannot be located. -/
theorem readThrough_unlocated (more : left ≠ 0) {cause : Error}
    (unlocated : place (position / blockSize) = .error cause) :
    readThrough window blockSize sized place position left = .error cause := by
  rw [readThrough, readRuns, if_neg more]
  exact run_bind_eq_error.mpr (.inl unlocated)

/-- A read delivers what is wanted of its first run, and behind that what is read from where
the run ends. -/
theorem readThrough_eq_ok (more : left ≠ 0) {mapping : Mapping}
    (located : place (position / blockSize) = .ok mapping) {count : Nat}
    (counted : min left (mapping.blocksAvailable * blockSize - position % blockSize) = count) :
    readThrough window blockSize sized place position left = .ok bytes ↔
      ∃ front behind,
        (window.readExact (mapping.physicalBlock * blockSize + position % blockSize) count :
          ExceptT Error Id Bytes).run = .ok front ∧
        readThrough window blockSize sized place (position + count) (left - count) = .ok behind ∧
        bytes = front ++ behind := by
  rw [readThrough, readRuns, if_neg more, run_bind_eq_ok, ← counted]
  constructor
  · rintro ⟨found, again, delivered⟩
    obtain ⟨⟩ := located.symm.trans again
    obtain ⟨front, read, delivered⟩ := run_bind_eq_ok.mp delivered
    obtain ⟨behind, later, ⟨⟩⟩ := run_bind_eq_ok.mp delivered
    exact ⟨front, behind, read, later, rfl⟩
  · rintro ⟨front, behind, read, later, rfl⟩
    exact ⟨mapping, located, run_bind_eq_ok.mpr ⟨front, read,
      run_bind_eq_ok.mpr ⟨behind, later, rfl⟩⟩⟩

/-- A place that is so many bytes ahead of another lies so many blocks ahead of its block. -/
theorem div_ahead (sized : 0 < blockSize) (position ahead : Nat) :
    (position + ahead) / blockSize = position / blockSize + (position % blockSize + ahead) / blockSize ∧
      (position + ahead) % blockSize = (position % blockSize + ahead) % blockSize := by
  have whole : position + ahead =
      position % blockSize + ahead + blockSize * (position / blockSize) := by
    have parts := Nat.mod_add_div position blockSize
    omega
  constructor
  · rw [whole, Nat.add_mul_div_left _ _ sized, Nat.add_comm]
  · rw [whole, Nat.add_mul_mod_self_left]

/-- A run that was entered is not empty. -/
theorem run_pos (sized : 0 < blockSize) (position : Nat) (mapping : Mapping) :
    0 < mapping.blocksAvailable * blockSize - position % blockSize := by
  have within := Nat.mod_lt position sized
  have blocks := Nat.le_mul_of_pos_left blockSize mapping.available_pos
  omega

/-- A place inside a run lies in a block that is left of it. -/
theorem ahead_lt_available {available ahead : Nat}
    (inside : ahead < available * blockSize - position % blockSize) :
    (position % blockSize + ahead) / blockSize < available :=
  Nat.div_lt_of_lt_mul (by rw [Nat.mul_comm]; omega)

/-- Each byte that is read lies in a run that was entered by looking up a block of it. The
induction follows the runs. -/
theorem run_of_readThrough
    (delivered : readThrough window blockSize sized place position left = .ok bytes) :
    bytes.length = left ∧ ∀ index < left, ∃ block mapping, place block = .ok mapping ∧
      block ≤ (position + index) / blockSize ∧
      (position + index) / blockSize < block + mapping.blocksAvailable := by
  induction position, left using Fork.readRuns.induct blockSize sized generalizing bytes with
  | case1 position =>
    rw [readThrough_zero] at delivered
    obtain ⟨⟩ := delivered
    simp
  | case2 position left more within =>
    rename_i inductionHypothesis
    obtain ⟨mapping, located⟩ := located_of_readThrough more delivered
    obtain ⟨front, behind, read, later, rfl⟩ := (readThrough_eq_ok more located rfl).mp delivered
    have frontLength := (Window.readExact_eq_ok.mp read).2
    obtain ⟨behindLength, entered⟩ := inductionHypothesis mapping later
    refine ⟨by rw [List.length_append, frontLength, behindLength]; omega, ?_⟩
    intro index before
    by_cases here : index < min left (mapping.blocksAvailable * blockSize - position % blockSize)
    · refine ⟨position / blockSize, mapping, located, Nat.div_le_div_right (Nat.le_add_right _ _), ?_⟩
      rw [(div_ahead sized position index).1]
      exact Nat.add_lt_add_left (ahead_lt_available (by omega)) _
    · obtain ⟨block, other, locatedOther, entered⟩ := entered
        (index - min left (mapping.blocksAvailable * blockSize - position % blockSize)) (by omega)
      refine ⟨block, other, locatedOther, ?_⟩
      rwa [Nat.add_assoc, Nat.add_sub_cancel' (Nat.not_lt.mp here)] at entered

/-- What is left of a run ahead of a place in it starts as many bytes further on, and is as
many bytes shorter. -/
theorem run_ahead (sized : 0 < blockSize) {mapping further : Mapping} {ahead : Nat}
    (physical : further.physicalBlock =
      mapping.physicalBlock + (position % blockSize + ahead) / blockSize)
    (available : further.blocksAvailable =
      mapping.blocksAvailable - (position % blockSize + ahead) / blockSize) :
    further.physicalBlock * blockSize + (position + ahead) % blockSize =
        mapping.physicalBlock * blockSize + position % blockSize + ahead ∧
      further.blocksAvailable * blockSize - (position + ahead) % blockSize =
        mapping.blocksAvailable * blockSize - position % blockSize - ahead := by
  have parts := Nat.div_add_mod' (position % blockSize + ahead) blockSize
  rw [physical, available, (div_ahead sized position ahead).2, Nat.add_mul, Nat.sub_mul]
  omega

/-- A read may be cut inside its first run, if the second part starts inside the bound: what
the first part leaves of the run is found there. -/
theorem readThrough_cut {bound : Nat} (steady : Steady bound place) (coherent : window.Coherent)
    {mapping : Mapping} (located : place (position / blockSize) = .ok mapping) {first rest : Nat}
    (some_ : first ≠ 0) (more : rest ≠ 0) (reached : (position + first) / blockSize < bound)
    (inside : first < mapping.blocksAvailable * blockSize - position % blockSize) :
    readThrough window blockSize sized place position (first + rest) = .ok bytes ↔
      ∃ front behind, readThrough window blockSize sized place position first = .ok front ∧
        readThrough window blockSize sized place (position + first) rest = .ok behind ∧
        bytes = front ++ behind := by
  have block := (div_ahead sized position first).1
  rw [block] at reached
  obtain ⟨further, found, physical, available⟩ :=
    steady.along located _ (ahead_lt_available inside) reached
  rw [← block] at found
  obtain ⟨begins, shorter⟩ := run_ahead sized physical available
  let count := min rest (mapping.blocksAvailable * blockSize - position % blockSize - first)
  have wholeCount : min (first + rest)
      (mapping.blocksAvailable * blockSize - position % blockSize) = first + count := by omega
  have behindCount : min rest (further.blocksAvailable * blockSize - (position + first) % blockSize) =
      count := by rw [shorter]
  rw [readThrough_eq_ok (by omega) located wholeCount]
  simp only [readThrough_eq_ok some_ located (Nat.min_eq_left (Nat.le_of_lt inside)),
    readThrough_eq_ok more found behindCount, begins, coherent.readExact_add, Nat.sub_self,
    readThrough_zero, Nat.add_sub_add_left, ← Nat.add_assoc]
  constructor
  · rintro ⟨_, behind, ⟨front, middle, first_, second, rfl⟩, later, rfl⟩
    exact ⟨front, middle ++ behind, ⟨front, [], first_, rfl, (List.append_nil front).symm⟩,
      ⟨middle, behind, second, later, rfl⟩, List.append_assoc front middle behind⟩
  · rintro ⟨_, _, ⟨front, _, first_, ⟨⟩, rfl⟩, ⟨middle, behind, second, later, rfl⟩, rfl⟩
    refine ⟨front ++ middle, behind, ⟨front, middle, first_, second, rfl⟩, later, ?_⟩
    rw [List.append_nil, List.append_assoc]

/-- A read may be cut in two wherever the second part starts inside the bound. Induct over the
bytes of the first part, which loses a run with each step. As long as whole runs are lost, the
read and its first part lose the same ones, and in the end the cut lies inside a run. -/
theorem readThrough_add {bound : Nat} (steady : Steady bound place) (coherent : window.Coherent)
    {first rest : Nat} (reached : rest ≠ 0 → (position + first) / blockSize < bound) :
    readThrough window blockSize sized place position (first + rest) = .ok bytes ↔
      ∃ front behind, readThrough window blockSize sized place position first = .ok front ∧
        readThrough window blockSize sized place (position + first) rest = .ok behind ∧
        bytes = front ++ behind := by
  induction first using Nat.strong_induction_on generalizing position bytes with
  | _ first inductionHypothesis =>
    by_cases nothing : rest = 0
    · simp [nothing, readThrough_zero]
    by_cases start : first = 0
    · simp [start, readThrough_zero]
    cases located : place (position / blockSize) with
    | error cause =>
      rw [readThrough_unlocated start located, readThrough_unlocated (by omega) located]
      simp
    | ok mapping =>
      by_cases inside : first < mapping.blocksAvailable * blockSize - position % blockSize
      · exact readThrough_cut steady coherent located start nothing (reached nothing) inside
      have entered := run_pos sized position mapping
      obtain ⟨run, length⟩ : ∃ run,
          mapping.blocksAvailable * blockSize - position % blockSize = run := ⟨_, rfl⟩
      rw [length] at inside entered
      have wholeCount : min (first + rest)
          (mapping.blocksAvailable * blockSize - position % blockSize) = run := by omega
      have firstCount : min first
          (mapping.blocksAvailable * blockSize - position % blockSize) = run := by omega
      have moved : position + run + (first - run) = position + first := by omega
      have shorter : first + rest - run = first - run + rest := by omega
      have further {bytes : Bytes} := @inductionHypothesis (first - run) (by omega)
        (position + run) bytes (moved.symm ▸ reached)
      rw [readThrough_eq_ok (by omega) located wholeCount]
      simp only [readThrough_eq_ok start located firstCount, shorter, further, moved]
      constructor
      · rintro ⟨front, _, read, ⟨middle, behind, later, last, rfl⟩, rfl⟩
        exact ⟨front ++ middle, behind, ⟨front, middle, read, later, rfl⟩, last,
          (List.append_assoc front middle behind).symm⟩
      · rintro ⟨_, behind, ⟨front, middle, read, later, rfl⟩, last, rfl⟩
        exact ⟨front, middle ++ behind, read, ⟨middle, behind, later, last, rfl⟩,
          List.append_assoc front middle behind⟩

/-- Reading nothing, a stream delivers nothing, and else what lies between the offset and its
end. -/
theorem readStream_run (sized : 0 < blockSize) (logicalSize offset wanted : Nat) :
    (readStream window blockSize logicalSize (fun block => liftM (place block)) offset wanted :
      ExceptT Error Id Bytes).run =
      readThrough window blockSize sized place offset (min wanted (logicalSize - offset)) := by
  rw [readStream, dif_pos sized]
  rfl

end Runs

/-- What is read of a stream keeps to a bound, if the stream ends before it or no run leads
across it. -/
structure KeepsTo (bound blockSize logicalSize : Nat) (place : Nat → Except Error Mapping) : Prop
    extends Steady bound place where
  confined : logicalSize ≤ bound * blockSize ∨ ∀ block mapping, place block = .ok mapping →
    block + mapping.blocksAvailable ≤ bound

section Streams

variable {window : Window} {blockSize bound logicalSize : Nat}
variable {place : Nat → Except Error Mapping} (keeps : KeepsTo bound blockSize logicalSize place)
include keeps

/-- Bytes that are read of a stream lie in blocks inside the bound. -/
theorem KeepsTo.inside_of_readThrough {sized : 0 < blockSize} {offset left : Nat} {bytes : Bytes}
    (within : left ≤ logicalSize - offset)
    (delivered : readThrough window blockSize sized place offset left = .ok bytes)
    (index : Nat) (before : index < left) : (offset + index) / blockSize < bound := by
  rcases keeps.confined with short | whole
  · exact Nat.div_lt_of_lt_mul (by rw [Nat.mul_comm]; omega)
  · obtain ⟨block, mapping, located, _, left⟩ := (run_of_readThrough delivered).2 index before
    exact Nat.lt_of_lt_of_le left (whole block mapping located)

/-- Bytes that are read of a stream lie in blocks inside the bound. -/
theorem KeepsTo.inside_of_readStream {offset wanted : Nat} {bytes : Bytes}
    (delivered : (readStream window blockSize logicalSize (fun block => liftM (place block))
      offset wanted : ExceptT Error Id Bytes).run = .ok bytes)
    (index : Nat) (before : index < bytes.length) : (offset + index) / blockSize < bound := by
  by_cases sized : 0 < blockSize
  · rw [readStream_run sized] at delivered
    have length := (run_of_readThrough delivered).1
    exact keeps.inside_of_readThrough (Nat.min_le_right _ _) delivered index (length ▸ before)
  · rw [readStream, dif_neg sized] at delivered
    obtain ⟨⟩ := delivered
    cases before

/-- A read of a stream may be cut in two anywhere. If the second part starts behind the bound,
neither it nor the whole is delivered. -/
theorem KeepsTo.add (coherent : window.Coherent) (offset first rest : Nat) (bytes : Bytes) :
    let read (offset wanted : Nat) : Except Error Bytes :=
      (readStream window blockSize logicalSize (fun block => liftM (place block)) offset wanted :
        ExceptT Error Id Bytes).run
    read offset (first + rest) = .ok bytes ↔ ∃ front behind,
      read offset first = .ok front ∧ read (offset + first) rest = .ok behind ∧
        bytes = front ++ behind := by
  intro read
  by_cases sized : 0 < blockSize
  · have run (offset wanted : Nat) : read offset wanted = readThrough window blockSize sized place
        offset (min wanted (logicalSize - offset)) := readStream_run sized logicalSize offset wanted
    simp only [run]
    by_cases ends : first ≤ logicalSize - offset
    · let behind := min rest (logicalSize - (offset + first))
      have whole : min (first + rest) (logicalSize - offset) = first + behind := by omega
      rw [whole, Nat.min_eq_left ends]
      by_cases reached : behind ≠ 0 → (offset + first) / blockSize < bound
      · exact readThrough_add keeps.toSteady coherent reached
      obtain ⟨more, beyond⟩ := Classical.not_imp.mp reached
      constructor
      · intro delivered
        exact absurd (keeps.inside_of_readThrough (by omega) delivered first (by omega)) beyond
      · rintro ⟨_, _, _, delivered, _⟩
        exact absurd (keeps.inside_of_readThrough (Nat.min_le_right _ _) delivered 0 (by omega))
          beyond
    · have whole : min (first + rest) (logicalSize - offset) = min first (logicalSize - offset) := by
        omega
      have nothing : min rest (logicalSize - (offset + first)) = 0 := by omega
      simp [whole, nothing, readThrough_zero]
  · have nothing (offset wanted : Nat) : read offset wanted = .ok [] := by
      simp only [read]
      rw [readStream, dif_neg sized]
      rfl
    simp only [nothing]
    constructor
    · rintro ⟨⟩
      exact ⟨[], [], rfl, rfl, rfl⟩
    · rintro ⟨_, _, ⟨⟩, ⟨⟩, rfl⟩
      rfl

end Streams

section Forks

variable (overflow : OverflowSource Id) (data : ForkData) (kind : ForkKind) (fileId : UInt32)
variable (blockSize : Nat)

/-- The stream of a fork ends inside the allocation, or no run of the fork leads across the
end of the allocation. -/
def Confined : Prop :=
  data.logicalSize.toNat ≤ data.totalBlocks.toNat * blockSize ∨
    ∀ records block physical left, Chained overflow data kind fileId UInt32.size records →
      placeIn (data.runs records) block = some (physical, left) →
      block < data.totalBlocks.toNat → block + left ≤ data.totalBlocks.toNat

variable {overflow data kind fileId blockSize}

/-- A fork that fetches records keeps to its allocation if it is confined to it. -/
theorem Confined.locate (confined : Confined overflow data kind fileId blockSize) :
    KeepsTo data.totalBlocks.toNat blockSize data.logicalSize.toNat
      (Fork.locate overflow (ofData data kind fileId blockSize)) where
  inside located := (locate_eq_ok.mp located).1
  along located ahead within inside := by
    obtain ⟨_, records, chained, placed⟩ := locate_eq_ok.mp located
    exact ⟨⟨_, _, by omega⟩, locate_eq_ok.mpr ⟨inside, records, chained, placeIn_add placed within⟩,
      rfl, rfl⟩
  confined := by
    refine confined.imp id fun whole block mapping located => ?_
    obtain ⟨inside, records, chained, placed⟩ := locate_eq_ok.mp located
    exact whole records block _ _ chained placed inside

/-- A fork that has fetched some records locates, of its blocks, those in their runs. -/
theorem located_eq_ok {records : List ExtentRecord} {block : Nat} {mapping : Mapping} :
    located (ofRecords data kind fileId blockSize records) block = .ok mapping ↔
      block < data.totalBlocks.toNat ∧ placeIn (data.runs records) block =
        some (mapping.physicalBlock, mapping.blocksAvailable) := by
  rw [← @mapping?_ofRecords data kind fileId blockSize records block mapping]
  unfold located
  cases (ofRecords data kind fileId blockSize records).mapping? block with
  | none => simp
  | some other =>
    rw [totalBlocks_ofRecords]
    dsimp only
    split <;> simp [*]

/-- So does a fork that reads through the records it has fetched. -/
theorem Confined.located (confined : Confined overflow data kind fileId blockSize)
    {records : List ExtentRecord}
    (chained : Chained overflow data kind fileId data.totalBlocks.toNat records) :
    KeepsTo data.totalBlocks.toNat blockSize data.logicalSize.toNat
      (Fork.located (ofRecords data kind fileId blockSize records)) where
  inside found := (located_eq_ok.mp found).1
  along found ahead within inside := by
    obtain ⟨_, placed⟩ := located_eq_ok.mp found
    exact ⟨⟨_, _, by omega⟩, located_eq_ok.mpr ⟨inside, placeIn_add placed within⟩, rfl, rfl⟩
  confined := by
    refine confined.imp id fun whole block mapping found => ?_
    obtain ⟨inside, placed⟩ := located_eq_ok.mp found
    exact whole records block _ _ (chained.mono (Nat.le_of_lt data.totalBlocks.toNat_lt_size))
      placed inside

/-- **Reads keep to the allocation of a confined fork.** Whatever was asked of the fork before,
and whether a read fetches records or not, each byte that it delivers lies in a block of the
fork. A read may be cut in two anywhere: it succeeds when both parts do, and then delivers one
behind the other, if the volume delivers in one read what it supplies byte by byte. -/
theorem reads_confined {overflow : OverflowSource Id} {data : ForkData} {kind : ForkKind}
    {fileId : UInt32} {blockSize : Nat} (confined : Confined overflow data kind fileId blockSize)
    (window : Window) (earlier : List Request) :
    let fork := ((replies overflow earlier).run (ofData data kind fileId blockSize)).2
    let ranged (offset wanted : Nat) : Except Error Bytes :=
      ((readRange window overflow offset wanted).run.run fork).1
    let mapped (offset wanted : Nat) : Except Error Bytes :=
      (fork.readMapped window offset wanted : ExceptT Error Id Bytes).run
    ∀ read ∈ [ranged, mapped],
      (∀ offset wanted bytes, read offset wanted = .ok bytes → ∀ index < bytes.length,
        (offset + index) / blockSize < data.totalBlocks.toNat) ∧
      (window.Coherent → ∀ offset first rest bytes, read offset (first + rest) = .ok bytes ↔
        ∃ front behind, read offset first = .ok front ∧ read (offset + first) rest = .ok behind ∧
          bytes = front ++ behind) := by
  intro fork ranged mapped read chosen
  obtain ⟨_, further⟩ := replies_furtherOn furtherOn_ofData earlier
  obtain ⟨place, keeps, same⟩ : ∃ place,
      KeepsTo data.totalBlocks.toNat blockSize data.logicalSize.toNat place ∧
      ∀ offset wanted, read offset wanted = (readStream window blockSize data.logicalSize.toNat
        (fun block => liftM (place block)) offset wanted : ExceptT Error Id Bytes).run := by
    rcases List.mem_pair.mp chosen with rfl | rfl
    · exact ⟨_, confined.locate, fun offset wanted =>
        (readRange_furtherOn further window offset wanted).1⟩
    · obtain ⟨records, chained, state⟩ := further
      refine ⟨_, confined.located chained, fun offset wanted => ?_⟩
      simp only [mapped, fork]
      rw [readMapped_eq, state]
      rfl
  simp only [same]
  exact ⟨fun offset wanted bytes delivered => keeps.inside_of_readStream delivered,
    fun coherent => keeps.add coherent⟩

/-- No weaker condition would do. In a fork that is not confined a read leads across the end of
the allocation, and is delivered as far as the volume has the bytes, although the last of them
cannot be read alone. -/
theorem unconfined_read (sized : 0 < blockSize)
    (unconfined : ¬ Confined overflow data kind fileId blockSize) (earlier : List Request) :
    ∃ offset first start, (offset + first) / blockSize = data.totalBlocks.toNat ∧
      ∀ window bytes,
        let fork := ((replies overflow earlier).run (ofData data kind fileId blockSize)).2
        let read (offset wanted : Nat) : Except Error Bytes :=
          ((readRange window overflow offset wanted).run.run fork).1
        (window.readExact start (first + 1) : ExceptT Error Id Bytes).run = .ok bytes →
          read offset (first + 1) = .ok bytes ∧
          read (offset + first) 1 = .error (.unmappedBlock fileId kind data.totalBlocks.toNat) := by
  unfold Confined at unconfined
  push Not at unconfined
  obtain ⟨long, records, block, physical, left, chained, placed, inside, across⟩ := unconfined
  obtain ⟨ahead, split⟩ := Nat.exists_eq_add_of_lt inside
  have located : locate overflow (ofData data kind fileId blockSize) (block * blockSize / blockSize) =
      .ok ⟨physical, left, by omega⟩ := by
    rw [Nat.mul_div_cancel _ sized]
    exact locate_eq_ok.mpr ⟨inside, records, chained, placed⟩
  have end_ : block * blockSize + (ahead + 1) * blockSize = data.totalBlocks.toNat * blockSize := by
    rw [← Nat.add_mul, split, Nat.add_assoc]
  have room : (ahead + 1) * blockSize + blockSize ≤ left * blockSize := by
    rw [← Nat.succ_mul]
    exact Nat.mul_le_mul_right _ (by omega)
  refine ⟨block * blockSize, (ahead + 1) * blockSize, physical * blockSize, ?_, ?_⟩
  · rw [end_, Nat.mul_div_cancel _ sized]
  intro window bytes fork read supplied
  obtain ⟨_, further⟩ := replies_furtherOn furtherOn_ofData earlier
  have run (offset wanted : Nat) : read offset wanted = readThrough window blockSize sized
      (locate overflow (ofData data kind fileId blockSize)) offset
      (min wanted (data.logicalSize.toNat - offset)) :=
    (readRange_furtherOn further window offset wanted).1.trans (readStream_run sized _ _ _)
  rw [run, run, end_]
  constructor
  · have within : min ((ahead + 1) * blockSize + 1) (data.logicalSize.toNat - block * blockSize) =
        (ahead + 1) * blockSize + 1 := by omega
    have counted : min ((ahead + 1) * blockSize + 1)
        (left * blockSize - block * blockSize % blockSize) = (ahead + 1) * blockSize + 1 := by
      rw [Nat.mul_mod_left]
      omega
    rw [within, readThrough_eq_ok (by omega) located counted, Nat.sub_self, Nat.mul_mod_left]
    exact ⟨bytes, [], supplied, readThrough_zero, (List.append_nil bytes).symm⟩
  · refine readThrough_unlocated (by omega) ?_
    rw [Nat.mul_div_cancel _ sized]
    exact locate_outside (Nat.le_refl _)

end Forks

section Sample

/-- The fork of three blocks is confined: its runs map just these. -/
theorem sample_confined : Confined sampleOverflow sampleData .data 17 4 := .inl (by decide)

/-- Two parts of a read of the sample, which goes on into the overflow record, are delivered
one behind the other. -/
theorem reads_confined_sample :
    let read (offset wanted : Nat) : Except Error Bytes :=
      ((readRange sampleWindow sampleOverflow offset wanted).run.run
        (ofData sampleData .data 17 4)).1
    Confined sampleOverflow sampleData .data 17 4 ∧ sampleWindow.Coherent ∧
      read 3 (4 + 3) = .ok ([11, 12, 13, 14] ++ [15, 4, 5]) ∧
      read 3 4 = .ok [11, 12, 13, 14] ∧ read 7 3 = .ok [15, 4, 5] ∧
      ∀ index < 7, (3 + index) / 4 < sampleData.totalBlocks.toNat := by
  intro read
  obtain ⟨inside, cut⟩ := reads_confined sample_confined sampleWindow [] read List.mem_cons_self
  have front : read 3 4 = .ok [11, 12, 13, 14] := by decide +kernel
  have behind : read 7 3 = .ok [15, 4, 5] := by decide +kernel
  have whole := (cut sample_coherent 3 4 3 _).mpr ⟨_, _, front, behind, rfl⟩
  exact ⟨sample_confined, sample_coherent, whole, front, behind, inside 3 7 _ whole⟩

/-- A fork of one block whose run has two. -/
def crossingData : ForkData :=
  { logicalSize := 8, clumpSize := 0, totalBlocks := 1, extents := sampleRun 0 2 }

/-- All of it is read at once, but its second block cannot be read alone. -/
theorem reads_cross :
    let fork := ofData crossingData .data 17 4
    let ranged (offset wanted : Nat) : Except Error Bytes :=
      ((readRange (n := Id) sampleWindow .none offset wanted).run.run fork).1
    let mapped (offset wanted : Nat) : Except Error Bytes :=
      (fork.readMapped sampleWindow offset wanted : ExceptT Error Id Bytes).run
    crossingData.totalBlocks.toNat ≤ (0 + 7) / 4 ∧ ∀ read ∈ [ranged, mapped],
      read 0 8 = .ok [0, 1, 2, 3, 4, 5, 6, 7] ∧ read 0 4 = .ok [0, 1, 2, 3] ∧
      read 4 4 = .error (.unmappedBlock 17 .data 1) := by
  intro fork ranged mapped
  refine ⟨by decide, fun read chosen => ?_⟩
  rcases List.mem_pair.mp chosen with rfl | rfl
  · exact ⟨by decide +kernel, by decide +kernel, by decide +kernel⟩
  · exact ⟨by decide +kernel, by decide +kernel, by decide +kernel⟩

end Sample

end Fork

end HfsPlus
