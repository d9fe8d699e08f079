import HfsPlus.Proofs.Fork.History

/-!
# Where the blocks of a fork lie

The chain of a fork's records is settled by the source alone: no record can be continued in
two ways, so of two chains one begins with the other. It therefore assigns one place to a
block, `Maps`, or comes to an end before the block, `Unmapped`. Where the fork stops is
another matter, as it needs no record beyond its last block. For every block of the fork
this makes no difference: the fork locates it at the place that the chain assigns, and if
there is none it fails for the reason that ends the chain.
-/

namespace HfsPlus

section Chains

variable {overflow : OverflowSource Id} {data : ForkData} {kind : ForkKind} {fileId : UInt32}
variable {bound limit : Nat} {records : List ExtentRecord}

/-- A chain below some bound is one below any larger bound. -/
theorem Chained.mono (chained : Chained overflow data kind fileId bound records)
    (larger : bound ≤ limit) : Chained overflow data kind fileId limit records := by
  induction chained with
  | own => exact .own
  | further _ inside found used inductionHypothesis =>
    exact .further inductionHypothesis (Nat.lt_of_lt_of_le inside larger) found used

/-- Each record of a chain is kept under the first block that the records before it leave
unmapped. -/
theorem Chained.next {record : ExtentRecord} {more : List ExtentRecord}
    (chained : Chained overflow data kind fileId bound (records ++ record :: more)) :
    (overflow fileId kind (UInt32.ofNat (blocksIn (data.runs records)))).run =
      .ok (some record) ∧ record.used ≠ [] := by
  generalize whole : records ++ record :: more = chain at chained
  induction chained generalizing more with
  | own => simp at whole
  | @further earlier last _ _ found used inductionHypothesis =>
    rcases List.eq_nil_or_concat more with rfl | ⟨front, final, rfl⟩
    · obtain ⟨rfl, same⟩ := List.append_inj' whole rfl
      obtain ⟨rfl, _⟩ := List.cons.inj same
      exact ⟨found, used⟩
    · have split : (records ++ record :: front) ++ [final] = earlier ++ [last] := by
        simpa using whole
      exact inductionHypothesis (List.append_inj' split rfl).1

/-- Of two chains of a fork one begins with the other: where both go on from the same blocks, they
get the same record. -/
theorem Chained.comparable {others : List ExtentRecord}
    (left : Chained overflow data kind fileId bound records)
    (right : Chained overflow data kind fileId bound others) :
    records <+: others ∨ others <+: records := by
  induction left with
  | own => exact .inl List.nil_prefix
  | @further earlier last _ _ found _ inductionHypothesis =>
    rcases inductionHypothesis with ⟨more, rfl⟩ | shorter
    · cases more with
      | nil =>
        rw [List.append_nil]
        exact .inr (List.prefix_append _ _)
      | cons record more =>
        obtain ⟨⟩ := found.symm.trans right.next.1
        exact .inl ⟨more, by simp⟩
    · exact .inr (shorter.trans (List.prefix_append _ _))

/-- A chain that begins with another maps no fewer blocks. -/
theorem ForkData.blocksIn_le {others : List ExtentRecord} (begins : records <+: others) :
    blocksIn (data.runs records) ≤ blocksIn (data.runs others) := by
  obtain ⟨more, rfl⟩ := begins
  simp

end Chains

namespace Fork

section Assigned

variable (overflow : OverflowSource Id) (data : ForkData) (kind : ForkKind) (fileId : UInt32)

/-- The chain of a fork's records assigns a place to a block. A record of a chain is kept
under a 32-bit block number, and nothing else bounds it. -/
def Maps (block physical : Nat) : Prop :=
  ∃ records left, Chained overflow data kind fileId UInt32.size records ∧
    placeIn (data.runs records) block = some (physical, left)

/-- The chain of a fork's records ends before a block, for some reason: the source refuses
what would follow, or has nothing there, or what it has maps nothing. -/
inductive Unmapped (block : Nat) : Error → Prop
  | refused {records : List ExtentRecord} {cause : Error} :
    Chained overflow data kind fileId UInt32.size records →
    blocksIn (data.runs records) ≤ block →
    (overflow fileId kind (UInt32.ofNat (blocksIn (data.runs records)))).run = .error cause →
    Unmapped block cause
  | absent {records : List ExtentRecord} :
    Chained overflow data kind fileId UInt32.size records →
    blocksIn (data.runs records) ≤ block →
    (overflow fileId kind (UInt32.ofNat (blocksIn (data.runs records)))).run = .ok none →
    Unmapped block (.unmappedBlock fileId kind block)
  | unused {records : List ExtentRecord} {record : ExtentRecord} :
    Chained overflow data kind fileId UInt32.size records →
    blocksIn (data.runs records) ≤ block →
    (overflow fileId kind (UInt32.ofNat (blocksIn (data.runs records)))).run =
      .ok (some record) →
    record.used = [] →
    Unmapped block (.unmappedBlock fileId kind block)

end Assigned

variable {overflow : OverflowSource Id} {data : ForkData} {kind : ForkKind} {fileId : UInt32}
variable {blockSize block : Nat}

/-- A block has one place in the chain, and one run of it. -/
theorem placed_unique {records others : List ExtentRecord} {place other : Nat × Nat}
    (chained : Chained overflow data kind fileId UInt32.size records)
    (placed : placeIn (data.runs records) block = some place)
    (chainedOther : Chained overflow data kind fileId UInt32.size others)
    (placedOther : placeIn (data.runs others) block = some other) : place = other := by
  rcases chained.comparable chainedOther with ⟨more, rfl⟩ | ⟨more, rfl⟩
  · have still := placeIn_append placed (more.flatMap ExtentRecord.used)
    rw [← ForkData.runs_append, placedOther] at still
    exact (Option.some.inj still).symm
  · have still := placeIn_append placedOther (more.flatMap ExtentRecord.used)
    rw [← ForkData.runs_append, placed] at still
    exact Option.some.inj still

/-- A block has one place. -/
theorem Maps.unique {physical other : Nat} (maps : Maps overflow data kind fileId block physical)
    (also : Maps overflow data kind fileId block other) : physical = other := by
  obtain ⟨records, left, chained, placed⟩ := maps
  obtain ⟨others, leftOther, chainedOther, placedOther⟩ := also
  exact congrArg Prod.fst (placed_unique chained placed chainedOther placedOther)

/-- What no record follows is the longest chain. -/
theorem blocksIn_le_of_ended {records others : List ExtentRecord}
    (chained : Chained overflow data kind fileId UInt32.size records)
    (ended : ∀ record, (overflow fileId kind (UInt32.ofNat (blocksIn (data.runs records)))).run =
      .ok (some record) → record.used = [])
    (chainedOther : Chained overflow data kind fileId UInt32.size others) :
    blocksIn (data.runs others) ≤ blocksIn (data.runs records) := by
  rcases chained.comparable chainedOther with ⟨more, rfl⟩ | begins
  · cases more with
    | nil => simp
    | cons record more =>
      obtain ⟨found, used⟩ := chainedOther.next
      exact absurd (ended record found) used
  · exact ForkData.blocksIn_le begins

/-- Whatever the reason, the chain that ends before a block cannot be continued. -/
theorem Unmapped.ended {cause : Error} (unmapped : Unmapped overflow data kind fileId block cause) :
    ∃ records, Chained overflow data kind fileId UInt32.size records ∧
      blocksIn (data.runs records) ≤ block ∧
      ∀ record, (overflow fileId kind (UInt32.ofNat (blocksIn (data.runs records)))).run =
        .ok (some record) → record.used = [] := by
  cases unmapped with
  | refused chained before found =>
    refine ⟨_, chained, before, fun record other => ?_⟩
    rw [found] at other
    cases other
  | absent chained before found =>
    refine ⟨_, chained, before, fun record other => ?_⟩
    rw [found] at other
    cases other
  | unused chained before found nothing =>
    refine ⟨_, chained, before, fun record other => ?_⟩
    rw [found] at other
    cases other
    exact nothing

/-- A block before which the chain ends has no place. -/
theorem Unmapped.not_maps {cause : Error} (unmapped : Unmapped overflow data kind fileId block cause)
    (physical : Nat) : ¬ Maps overflow data kind fileId block physical := by
  rintro ⟨others, left, chainedOther, placed⟩
  obtain ⟨records, chained, before, ended⟩ := unmapped.ended
  have longest := blocksIn_le_of_ended chained ended chainedOther
  have inside : block < blocksIn (data.runs others) := by
    rw [← placeIn_isSome, placed]
    rfl
  omega

/-- A next record is refused only by the source. -/
theorem nextRecord_eq_error {fork : Fork} {cause : Error}
    (next : nextRecord overflow fork = .error cause) :
    (overflow fork.fileId fork.kind (UInt32.ofNat fork.mappedBlocks)).run = .error cause := by
  unfold nextRecord at next
  by_cases beyond : UInt32.size ≤ fork.mappedBlocks
  · rw [if_pos beyond] at next
    cases next
  · rw [if_neg beyond] at next
    generalize (overflow fork.fileId fork.kind (UInt32.ofNat fork.mappedBlocks)).run = found
      at next ⊢
    rcases found with refusal | _ | record
    · exact next
    · cases next
    · dsimp only at next
      split at next <;> cases next

/-- Nothing is next if nothing is kept under the first unmapped block, or only a record that
maps nothing. -/
theorem nextRecord_eq_none {fork : Fork} (numbered : fork.mappedBlocks < UInt32.size)
    (next : nextRecord overflow fork = .ok none) :
    (overflow fork.fileId fork.kind (UInt32.ofNat fork.mappedBlocks)).run = .ok none ∨
      ∃ record, (overflow fork.fileId fork.kind (UInt32.ofNat fork.mappedBlocks)).run =
        .ok (some record) ∧ record.used = [] := by
  unfold nextRecord at next
  rw [if_neg (Nat.not_le.mpr numbered)] at next
  generalize (overflow fork.fileId fork.kind (UInt32.ofNat fork.mappedBlocks)).run = found
    at next ⊢
  rcases found with refusal | _ | record
  · cases next
  · exact .inl rfl
  · by_cases unused : record.used.isEmpty = true
    · exact .inr ⟨record, rfl, List.isEmpty_iff.mp unused⟩
    · simp only [unused] at next
      cases next

/-- How a fork comes to locate a block: it ends further on in its chain. -/
theorem locate_ends (block : Nat) : ∃ records outcome,
    Chained overflow data kind fileId data.totalBlocks.toNat records ∧
      Ended overflow (place? block) (fun _ => .ok none)
        (ofRecords data kind fileId blockSize records) outcome ∧
      locate overflow (ofData data kind fileId blockSize) block =
        match outcome with
        | .ok (some mapping) => .ok mapping
        | .ok none => .error (.unmappedBlock fileId kind block)
        | .error cause => .error cause := by
  obtain ⟨records, chained, left, ended⟩ : ∃ records, _ ∧
      (pursue overflow (place? block) (fun _ => .ok none) _).2 = _ ∧ _ :=
    pursue_ends (ofData_eq data kind fileId blockSize) .own
  rw [List.nil_append] at chained left
  rw [left] at ended
  refine ⟨records, _, chained, ended, ?_⟩
  unfold locate
  rw [resolve_run]
  rfl

/-- A fork locates a block where the chain assigns it. -/
theorem locate_ok {mapping : Mapping}
    (located : locate overflow (ofData data kind fileId blockSize) block = .ok mapping) :
    ∃ records, Chained overflow data kind fileId UInt32.size records ∧
      placeIn (data.runs records) block =
        some (mapping.physicalBlock, mapping.blocksAvailable) := by
  obtain ⟨records, outcome, chained, ended, ran⟩ := locate_ends block
  rw [ran] at located
  have unbounded : Chained overflow data kind fileId UInt32.size records :=
    chained.mono (Nat.le_of_lt data.totalBlocks.toNat_lt_size)
  cases ended with
  | answered answered =>
    unfold place? at answered
    by_cases outside : data.totalBlocks.toNat ≤ block
    · rw [totalBlocks_ofRecords, if_pos outside] at answered
      cases answered
      cases located
    · rw [totalBlocks_ofRecords, if_neg outside] at answered
      obtain ⟨found, mapped, rfl⟩ := Option.map_eq_some_iff.mp answered
      cases located
      exact ⟨records, unbounded, mapping?_ofRecords.mp mapped⟩
  | full _ _ => cases located
  | refused _ _ => cases located
  | spent _ _ => cases located

/-- What is left of an extent from a block on is assigned likewise. -/
theorem maps_of_located {mapping : Mapping}
    (located : locate overflow (ofData data kind fileId blockSize) block = .ok mapping)
    {ahead : Nat} (within : ahead < mapping.blocksAvailable) :
    Maps overflow data kind fileId (block + ahead) (mapping.physicalBlock + ahead) := by
  obtain ⟨records, chained, placed⟩ := locate_ok located
  exact ⟨records, _, chained, placeIn_add placed within⟩

/-- If a fork cannot locate one of its blocks, the chain ends before it, and the error says
why. -/
theorem locate_error {cause : Error} (inside : block < data.totalBlocks.toNat)
    (located : locate overflow (ofData data kind fileId blockSize) block = .error cause) :
    Unmapped overflow data kind fileId block cause := by
  obtain ⟨records, outcome, chained, ended, ran⟩ := locate_ends block
  rw [ran] at located
  have numbers := data.totalBlocks.toNat_lt_size
  have unbounded : Chained overflow data kind fileId UInt32.size records :=
    chained.mono (Nat.le_of_lt numbers)
  have before (unanswered : place? block (ofRecords data kind fileId blockSize records) = none) :
      blocksIn (data.runs records) ≤ block := by
    unfold place? at unanswered
    rw [totalBlocks_ofRecords, if_neg (Nat.not_le.mpr inside), Option.map_eq_none_iff] at unanswered
    exact mapping?_ofRecords_none.mp unanswered
  cases ended with
  | answered answered =>
    unfold place? at answered
    rw [totalBlocks_ofRecords, if_neg (Nat.not_le.mpr inside)] at answered
    obtain ⟨found, mapped, rfl⟩ := Option.map_eq_some_iff.mp answered
    cases located
  | full unanswered full =>
    have known := (isFullyMapped_ofRecords data kind fileId blockSize records).mp full
    have behind := before unanswered
    omega
  | refused unanswered next =>
    cases located
    have refused := nextRecord_eq_error next
    rw [mappedBlocks_ofRecords] at refused
    exact .refused unbounded (before unanswered) refused
  | spent unanswered next =>
    cases located
    have behind := before unanswered
    have nothing := nextRecord_eq_none (by rw [mappedBlocks_ofRecords]; omega) next
    rw [mappedBlocks_ofRecords] at nothing
    rcases nothing with absent | ⟨record, found, unused⟩
    · exact .absent unbounded behind absent
    · exact .unused unbounded behind found unused

/-- A block behind the fork is not located. -/
theorem locate_outside (outside : data.totalBlocks.toNat ≤ block) :
    locate overflow (ofData data kind fileId blockSize) block =
      .error (.unmappedBlock fileId kind block) := by
  have answered : place? block (ofData data kind fileId blockSize) = some (.ok none) := by
    simp [place?, ofData, outside]
  unfold locate
  rw [resolve_run, pursue_known overflow answered]
  rfl

/-- A fork locates those of its blocks that the chain assigns, and no others. -/
theorem locate_eq_ok {mapping : Mapping} :
    locate overflow (ofData data kind fileId blockSize) block = .ok mapping ↔
      block < data.totalBlocks.toNat ∧ ∃ records,
        Chained overflow data kind fileId UInt32.size records ∧
        placeIn (data.runs records) block =
          some (mapping.physicalBlock, mapping.blocksAvailable) := by
  constructor
  · intro located
    refine ⟨?_, locate_ok located⟩
    by_contra outside
    cases (locate_outside (Nat.not_lt.mp outside)).symm.trans located
  · rintro ⟨inside, records, chained, placed⟩
    cases located : locate overflow (ofData data kind fileId blockSize) block with
    | error cause =>
      exact absurd ⟨records, _, chained, placed⟩
        ((locate_error inside located).not_maps mapping.physicalBlock)
    | ok other =>
      obtain ⟨others, chainedOther, placedOther⟩ := locate_ok located
      have same := placed_unique chainedOther placedOther chained placed
      obtain ⟨physical, available, _⟩ := other
      obtain ⟨_, _, _⟩ := mapping
      obtain ⟨rfl, rfl⟩ := Prod.mk.inj same
      rfl

end Fork

end HfsPlus
