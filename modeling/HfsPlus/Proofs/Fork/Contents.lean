import HfsPlus.Proofs.Fork.Places
import HfsPlus.Proofs.Volume.Pieces

/-!
# What reading a fork delivers

The bytes of a fork are those that the volume supplies at the places of its blocks, `Lies`.
A read goes over them run by run. The first run may start inside a block, each one ends with
its extent or with what is wanted, and records are fetched on the way; nothing of this shows
in what is delivered.
-/

namespace HfsPlus

namespace Fork

/-- Where on the volume a byte of a fork lies. -/
def Lies (overflow : OverflowSource Id) (data : ForkData) (kind : ForkKind) (fileId : UInt32)
    (blockSize position place : Nat) : Prop :=
  ∃ physical, Maps overflow data kind fileId (position / blockSize) physical ∧
    place = physical * blockSize + position % blockSize

variable {overflow : OverflowSource Id} {data : ForkData} {kind : ForkKind} {fileId : UInt32}
variable {blockSize position left : Nat} {window : Window}

/-- A byte lies at one place. -/
theorem Lies.unique {place other : Nat}
    (lies : Lies overflow data kind fileId blockSize position place)
    (also : Lies overflow data kind fileId blockSize position other) : place = other := by
  obtain ⟨physical, maps, rfl⟩ := lies
  obtain ⟨physicalOther, mapsOther, rfl⟩ := also
  rw [maps.unique mapsOther]

/-- The bytes of a run follow each other on the volume as they do in the fork, also where one
block of the run ends and the next one starts. -/
theorem lies_of_located (sized : 0 < blockSize) {mapping : Mapping}
    (located : locate overflow (ofData data kind fileId blockSize) (position / blockSize) =
      .ok mapping) {ahead : Nat}
    (inside : position % blockSize + ahead < mapping.blocksAvailable * blockSize) :
    Lies overflow data kind fileId blockSize (position + ahead)
      (mapping.physicalBlock * blockSize + position % blockSize + ahead) := by
  let within := position % blockSize + ahead
  have whole : position + ahead = within + blockSize * (position / blockSize) := by
    have parts := Nat.mod_add_div position blockSize
    omega
  have block : (position + ahead) / blockSize = position / blockSize + within / blockSize := by
    rw [whole, Nat.add_mul_div_left _ _ sized, Nat.add_comm]
  have rest : (position + ahead) % blockSize = within % blockSize := by
    rw [whole, Nat.add_mul_mod_self_left]
  have available : within / blockSize < mapping.blocksAvailable :=
    Nat.div_lt_of_lt_mul (by rwa [Nat.mul_comm])
  refine ⟨mapping.physicalBlock + within / blockSize, ?_, ?_⟩
  · rw [block]
    exact maps_of_located located available
  · have parts := Nat.div_add_mod' within blockSize
    rw [rest, Nat.add_mul]
    omega

section Runs

variable (sized : 0 < blockSize)

/-- Bytes that are read run by run are supplied at their places. The induction follows the
runs: what one of them delivers lies along its extent, and the rest is read behind it. -/
theorem readRuns_eq_ok {bytes : Bytes}
    (delivered : (readRuns window blockSize sized
      (fun block => liftM (locate overflow (ofData data kind fileId blockSize) block))
      position left : ExceptT Error Id Bytes).run = .ok bytes) :
    bytes.length = left ∧ ∀ index byte, bytes[index]? = some byte →
      ∃ place, Lies overflow data kind fileId blockSize (position + index) place ∧
        window.Supplies place byte := by
  induction position, left using Fork.readRuns.induct blockSize sized generalizing bytes with
  | case1 position =>
    rw [readRuns, if_pos rfl] at delivered
    cases delivered
    simp
  | case2 position left more within =>
    rename_i inductionHypothesis
    rw [readRuns, if_neg more] at delivered
    obtain ⟨mapping, located, delivered⟩ := run_bind_eq_ok.mp delivered
    obtain ⟨front, read, delivered⟩ := run_bind_eq_ok.mp delivered
    obtain ⟨rest, later, same⟩ := run_bind_eq_ok.mp delivered
    cases same
    obtain ⟨content, front_length⟩ := Window.readExact_eq_ok.mp read
    obtain ⟨rest_length, supplied⟩ := inductionHypothesis mapping later
    have locatedHere : locate overflow (ofData data kind fileId blockSize)
        (position / blockSize) = .ok mapping := located
    refine ⟨by rw [List.length_append, front_length, rest_length]; omega, ?_⟩
    intro index byte holds
    by_cases here : index < front.length
    · rw [List.getElem?_append_left here] at holds
      have inside : position % blockSize + index < mapping.blocksAvailable * blockSize := by
        omega
      refine ⟨_, lies_of_located sized locatedHere inside, ?_⟩
      refine ⟨_, front, Nat.le_add_right _ index, by rwa [front_length], ?_⟩
      rwa [Nat.add_sub_cancel_left]
    · rw [List.getElem?_append_right (by omega)] at holds
      obtain ⟨place, lies, supplies⟩ := supplied _ _ holds
      refine ⟨place, ?_, supplies⟩
      have moved : position + min left (mapping.blocksAvailable * blockSize - within) +
          (index - front.length) = position + index := by omega
      rwa [moved] at lies

/-- What keeps some bytes of a fork from being read run by run: the block of one of them is not
mapped, or the volume fails to deliver some that follow each other on it. Either the first run has
the fault, or it lies behind that run. -/
theorem readRuns_eq_error {cause : Error}
    (inside : ∀ index < left, position + index < data.totalBlocks.toNat * blockSize)
    (failed : (readRuns window blockSize sized
      (fun block => liftM (locate overflow (ofData data kind fileId blockSize) block))
      position left : ExceptT Error Id Bytes).run = .error cause) :
    ∃ index < left,
      Unmapped overflow data kind fileId ((position + index) / blockSize) cause ∨
      ∃ start length, 0 < length ∧ index + length ≤ left ∧
        (∀ ahead < length,
          Lies overflow data kind fileId blockSize (position + (index + ahead)) (start + ahead)) ∧
        (window.readExact start length : ExceptT Error Id Bytes).run = .error cause := by
  induction position, left using Fork.readRuns.induct blockSize sized with
  | case1 position =>
    rw [readRuns, if_pos rfl] at failed
    cases failed
  | case2 position left more within inductionHypothesis =>
    have some_ : 0 < left := Nat.pos_of_ne_zero more
    rw [readRuns, if_neg more] at failed
    rcases run_bind_eq_error.mp failed with unlocated | ⟨mapping, located, failed⟩
    · have block : position / blockSize < data.totalBlocks.toNat :=
        Nat.div_lt_of_lt_mul (by rw [Nat.mul_comm]; exact inside 0 some_)
      exact ⟨0, some_, .inl (locate_error block unlocated)⟩
    have locatedHere : locate overflow (ofData data kind fileId blockSize)
        (position / blockSize) = .ok mapping := located
    have nonempty := Nat.mod_lt position sized
    have whole := Nat.le_mul_of_pos_left blockSize mapping.available_pos
    rcases run_bind_eq_error.mp failed with unread | ⟨front, read, failed⟩
    · refine ⟨0, some_, .inr ⟨_, _, by omega, by omega, fun ahead along => ?_, unread⟩⟩
      rw [Nat.zero_add]
      exact lies_of_located sized locatedHere (by omega)
    rcases run_bind_eq_error.mp failed with behind | ⟨rest, later, failed⟩
    · let count := min left (mapping.blocksAvailable * blockSize - within)
      have moved (further : Nat) : position + count + further = position + (count + further) :=
        Nat.add_assoc position count further
      have insideBehind : ∀ index < left - count,
          position + count + index < data.totalBlocks.toNat * blockSize := by
        intro index before
        rw [moved]
        exact inside (count + index) (by omega)
      obtain ⟨index, before, reason⟩ := inductionHypothesis mapping insideBehind behind
      refine ⟨count + index, by omega, ?_⟩
      rcases reason with unmapped | ⟨start, length, nonzero, enough, lies, unread⟩
      · rw [moved] at unmapped
        exact .inl unmapped
      · refine .inr ⟨start, length, nonzero, by omega, fun ahead along => ?_, unread⟩
        have there := lies ahead along
        rwa [moved, ← Nat.add_assoc count index ahead] at there
    · cases failed

end Runs

/-- **A fork is read as its bytes.** Whatever was asked of a fork before, a read delivers as
many bytes as were wanted, or as there are up to the end of the fork, and each of them is
supplied by the volume at the place where the chain of the fork's records says that it lies.
A read that fails does so for a block that the chain does not map, with the reason why it
ends there, or because the volume fails to deliver some bytes of the range that follow each
other on it. It does fail if a block of the range is not mapped or a byte of it is not
supplied, and for nothing else if the volume delivers in one read what it supplies byte by
byte. -/
theorem readRange_delivers (overflow : OverflowSource Id) (data : ForkData) (kind : ForkKind)
    (fileId : UInt32) {blockSize : Nat} (sized : 0 < blockSize)
    (fits : data.logicalSize.toNat ≤ data.totalBlocks.toNat * blockSize) (window : Window)
    (earlier : List Request) (offset wanted : Nat) :
    let fork := ((replies overflow earlier).run (ofData data kind fileId blockSize)).2
    let outcome := ((readRange window overflow offset wanted).run.run fork).1
    let count := min wanted (data.logicalSize.toNat - offset)
    let block (index : Nat) := (offset + index) / blockSize
    let lies (index : Nat) := Lies overflow data kind fileId blockSize (offset + index)
    let missing := ∃ index < count,
      (∀ physical, ¬ Maps overflow data kind fileId (block index) physical) ∨
      ∃ place, lies index place ∧ ∀ byte, ¬ window.Supplies place byte
    (∀ bytes, outcome = .ok bytes → bytes.length = count ∧
      ∀ index byte, bytes[index]? = some byte →
        ∃ place, lies index place ∧ window.Supplies place byte) ∧
    (∀ cause, outcome = .error cause → ∃ index < count,
      Unmapped overflow data kind fileId (block index) cause ∨
      ∃ start length, 0 < length ∧ index + length ≤ count ∧
        (∀ ahead < length, lies (index + ahead) (start + ahead)) ∧
        (window.readExact start length : ExceptT Error Id Bytes).run = .error cause) ∧
    (missing → ∃ cause, outcome = .error cause) ∧
    (window.Coherent → ((∃ cause, outcome = .error cause) ↔ missing)) := by
  intro fork outcome count block lies missing
  obtain ⟨_, further⟩ := replies_furtherOn furtherOn_ofData earlier
  have read : outcome = (readRuns window blockSize sized
      (fun block => liftM (locate overflow (ofData data kind fileId blockSize) block))
      offset count : ExceptT Error Id Bytes).run := by
    have streamed := (readRange_furtherOn further window offset wanted).1
    rw [readStream, dif_pos sized] at streamed
    exact streamed
  have inside (index : Nat) (before : index < count) :
      offset + index < data.totalBlocks.toNat * blockSize := by omega
  have fails : missing → ∃ cause, outcome = .error cause := by
    rintro ⟨index, before, lacking⟩
    rcases ended : outcome with cause | bytes
    · exact ⟨cause, rfl⟩
    · obtain ⟨length, supplied⟩ := readRuns_eq_ok sized (read.symm.trans ended)
      obtain ⟨place, here, supplies⟩ := supplied index bytes[index]
        (List.getElem?_eq_getElem (by omega))
      rcases lacking with unmapped | ⟨other, there, unsupplied⟩
      · obtain ⟨physical, maps, _⟩ := here
        exact absurd maps (unmapped physical)
      · rw [here.unique there] at supplies
        exact absurd supplies (unsupplied _)
  refine ⟨?_, ?_, fails, fun coherent => ⟨?_, fails⟩⟩
  · intro bytes delivered
    exact readRuns_eq_ok sized (read.symm.trans delivered)
  · intro cause failed
    exact readRuns_eq_error sized inside (read.symm.trans failed)
  · rintro ⟨cause, failed⟩
    obtain ⟨index, before, unmapped | ⟨start, length, some_, enough, along, unread⟩⟩ :=
      readRuns_eq_error sized inside (read.symm.trans failed)
    · exact ⟨index, before, .inl unmapped.not_maps⟩
    · obtain ⟨ahead, within, unsupplied⟩ := coherent.unsupplied unread
      exact ⟨index + ahead, by omega, .inr ⟨_, along ahead within, unsupplied⟩⟩

section Sample

/-- The volume of the sample is coherent. -/
theorem sample_coherent : sampleWindow.Coherent :=
  Volume.coherent_of_holds _ (Source.holds_ofImage _) (by decide)

/-- A read of the sample starts inside a block and goes on into the overflow record. -/
theorem readRange_delivers_sample :
    let bytes : Bytes := [11, 12, 13, 14, 15, 4, 5]
    0 < 4 ∧ sampleData.logicalSize.toNat ≤ sampleData.totalBlocks.toNat * 4 ∧
      ((readRange sampleWindow sampleOverflow 3 7).run.run (ofData sampleData .data 17 4)).1 =
        .ok bytes ∧
      bytes.length = min 7 (sampleData.logicalSize.toNat - 3) ∧
      (∀ index byte, bytes[index]? = some byte →
        ∃ place, Lies sampleOverflow sampleData .data 17 4 (3 + index) place ∧
          sampleWindow.Supplies place byte) ∧
      ¬ ∃ index < 7,
        (∀ physical, ¬ Maps sampleOverflow sampleData .data 17 ((3 + index) / 4) physical) ∨
        ∃ place, Lies sampleOverflow sampleData .data 17 4 (3 + index) place ∧
          ∀ byte, ¬ sampleWindow.Supplies place byte := by
  intro bytes
  have sized : 0 < 4 := by decide
  have fits : sampleData.logicalSize.toNat ≤ sampleData.totalBlocks.toNat * 4 := by decide
  have delivered : ((readRange sampleWindow sampleOverflow 3 7).run.run
      (ofData sampleData .data 17 4)).1 = .ok bytes := by decide +kernel
  obtain ⟨success, _, _, exactly⟩ := readRange_delivers sampleOverflow sampleData .data 17 sized
    fits sampleWindow [] 3 7
  obtain ⟨length, supplied⟩ := success bytes delivered
  refine ⟨sized, fits, delivered, length, supplied, fun missing => ?_⟩
  obtain ⟨cause, failed⟩ := (exactly sample_coherent).mpr missing
  have both := delivered.symm.trans failed
  cases both

end Sample

end Fork

end HfsPlus
