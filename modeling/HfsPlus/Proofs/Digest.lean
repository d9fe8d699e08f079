import HfsPlus.Digest

/-!
# The digest of a text that comes in chunk by chunk

While a text comes in, its whole blocks are mixed and the bytes behind them are kept. That
describes all of the text that matters to its digest, so it is the same in whatever chunks
the text came.
-/

namespace HfsPlus.Digest

/-- Some blocks and further blocks are mixed one behind the other. Induct over the first ones. -/
theorem compressMany_add (first second : Nat) (state : State) (bytes : Bytes) :
    compressMany (first + second) state bytes =
      compressMany second (compressMany first state bytes) (bytes.drop (64 * first)) := by
  induction first generalizing state bytes with
  | zero => rw [Nat.zero_add, Nat.mul_zero, List.drop_zero, compressMany]
  | succ first inductionHypothesis =>
    rw [Nat.succ_add, compressMany, compressMany, inductionHypothesis, List.drop_drop,
      Nat.mul_succ, Nat.add_comm 64]

/-- What follows the blocks that are mixed does not matter. Induct over the blocks. -/
theorem compressMany_append {bytes : Bytes} {count : Nat} (enough : 64 * count ≤ bytes.length)
    (state : State) (later : Bytes) :
    compressMany count state (bytes ++ later) = compressMany count state bytes := by
  induction count generalizing state bytes with
  | zero => rw [compressMany, compressMany]
  | succ count inductionHypothesis =>
    have block : 64 ≤ bytes.length := by omega
    have remaining : 64 * count ≤ (bytes.drop 64).length := by
      rw [List.length_drop]
      omega
    rw [compressMany, compressMany, List.take_append_of_le_length block,
      List.drop_append_of_le_length block, inductionHypothesis remaining]

/-- A text has come in: its whole blocks are mixed, and the bytes behind them are kept. -/
structure Progress.Represents (progress : Progress) (text : Bytes) : Prop where
  state : progress.state = compressMany (text.length / 64) .initial text
  rest : progress.rest = text.drop (64 * (text.length / 64))
  length : progress.length = text.length

namespace Progress.Represents

variable {progress : Progress} {text : Bytes} (represents : progress.Represents text)
include represents

/-- Bytes that follow complete the blocks that are begun, and those behind them. -/
theorem blocks (later : Bytes) :
    (text ++ later).length / 64 = text.length / 64 + (progress.rest ++ later).length / 64 ∧
      compressMany ((text ++ later).length / 64) .initial (text ++ later) =
        compressMany ((progress.rest ++ later).length / 64) progress.state
          (progress.rest ++ later) := by
  have mixed : 64 * (text.length / 64) ≤ text.length := Nat.mul_div_le _ _
  have count : (text ++ later).length / 64 =
      text.length / 64 + (progress.rest ++ later).length / 64 := by
    rw [represents.rest, List.length_append, List.length_append, List.length_drop]
    omega
  refine ⟨count, ?_⟩
  rw [count, compressMany_add, compressMany_append mixed, List.drop_append_of_le_length mixed,
    ← represents.state, ← represents.rest]

/-- After a chunk, the text with that chunk has come in. -/
theorem add (chunk : Bytes) : (progress.add chunk).Represents (text ++ chunk) := by
  obtain ⟨count, mixed⟩ := represents.blocks chunk
  have within : 64 * (text.length / 64) ≤ text.length := Nat.mul_div_le _ _
  refine ⟨mixed.symm, ?_, ?_⟩
  · rw [count, Nat.mul_add, ← List.drop_drop, List.drop_append_of_le_length within,
      ← represents.rest]
    rfl
  · rw [List.length_append, ← represents.length]
    rfl

/-- So has it after several chunks. Induct over the chunks. -/
theorem foldl (chunks : List Bytes) :
    (chunks.foldl Progress.add progress).Represents (text ++ chunks.flatten) := by
  induction chunks generalizing progress text with
  | nil => rwa [List.flatten_nil, List.append_nil]
  | cons chunk later inductionHypothesis =>
    rw [List.flatten_cons, ← List.append_assoc]
    exact inductionHypothesis (represents.add chunk)

/-- In the end the digest of the text is found. -/
theorem finish : progress.finish = sha256 text := by
  rw [Progress.finish, sha256, represents.length, (represents.blocks _).2]

end Progress.Represents

end HfsPlus.Digest
