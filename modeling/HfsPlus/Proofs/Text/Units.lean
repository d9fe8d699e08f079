import HfsPlus.Text.Units

/-!
# Units that spell a text

Units without lone surrogates, `Paired`, are what writing gives back after reading: each
unit that stands alone is the one unit of its character, and each pair the two units of
the character that it stands for. What is read of such units is never the replacement
of a surrogate that has no partner.

Every text comes back from the units that it is written in, and these are paired: the units that
some text is written in are just those of which none is `Lone`.
-/

namespace HfsPlus.Text.Units

/-- Whether a unit is one half of a pair. -/
def IsHalf (unit : UInt16) : Prop := isHigh unit = true ∨ isLow unit = true

/-- Units in which every high surrogate is directly followed by a low one, and every low
one directly preceded by a high one. -/
def Paired : List UInt16 → Prop
  | [] => True
  | [unit] => ¬ IsHalf unit
  | first :: second :: rest =>
    if isHigh first && isLow second then Paired rest
    else ¬ IsHalf first ∧ Paired (second :: rest)

instance : DecidablePred IsHalf := fun unit =>
  inferInstanceAs (Decidable (isHigh unit = true ∨ isLow unit = true))

instance decidablePaired : DecidablePred Paired
  | [] => .isTrue trivial
  | [unit] => inferInstanceAs (Decidable (¬ IsHalf unit))
  | first :: second :: rest =>
    have := decidablePaired rest
    have := decidablePaired (second :: rest)
    inferInstanceAs (Decidable (if isHigh first && isLow second then Paired rest
      else ¬ IsHalf first ∧ Paired (second :: rest)))

/-- The character of a valid number has this number. -/
theorem toNat_ofNat {number : Nat} (valid : number.isValidChar) :
    (Char.ofNat number).toNat = number := by
  rw [Char.ofNat, dif_pos valid]
  rfl

/-- The number of a unit is below the bound of the basic plane. -/
theorem toNat_lt (unit : UInt16) : unit.toNat < 0x10000 := unit.toNat_lt

/-- A unit that is no half of a pair is the number of its character. -/
theorem toNat_alone {unit : UInt16} (whole : ¬ IsHalf unit) : (alone unit).toNat = unit.toNat := by
  have bound := toNat_lt unit
  have notHalf : ¬ (isHigh unit || isLow unit) = true := by
    rwa [Bool.or_eq_true]
  rw [alone, if_neg notHalf]
  refine toNat_ofNat ?_
  simp only [isHigh, isLow, Bool.or_eq_true, Bool.and_eq_true, decide_eq_true_eq] at notHalf
  unfold Nat.isValidChar
  omega

section Pair

variable {high low : UInt16} (first : isHigh high = true) (second : isLow low = true)
include first second

/-- A pair stands for a character outside the basic plane, as far behind it as its halves
say. -/
theorem toNat_joined : (joined high low).toNat =
    0x10000 + (high.toNat - 0xD800) * 0x400 + (low.toNat - 0xDC00) := by
  simp only [isHigh, isLow, Bool.and_eq_true, decide_eq_true_eq] at first second
  refine toNat_ofNat ?_
  unfold Nat.isValidChar
  omega

/-- Writing the character of a pair gives the pair back. -/
theorem ofChar_joined : ofChar (joined high low) = [high, low] := by
  have number := toNat_joined first second
  simp only [isHigh, isLow, Bool.and_eq_true, decide_eq_true_eq] at first second
  have back : 0xD800 + ((joined high low).toNat - 0x10000) / 0x400 = high.toNat ∧
      0xDC00 + ((joined high low).toNat - 0x10000) % 0x400 = low.toNat := by
    rw [number]
    omega
  rw [ofChar, if_neg (by omega)]
  dsimp only
  rw [back.1, back.2, UInt16.ofNat_toNat, UInt16.ofNat_toNat]

end Pair

/-- Writing the character of a unit that stands alone gives the unit back. -/
theorem ofChar_alone {unit : UInt16} (whole : ¬ IsHalf unit) : ofChar (alone unit) = [unit] := by
  rw [ofChar, toNat_alone whole, if_pos (toNat_lt unit), UInt16.ofNat_toNat]

/-- Units without lone surrogates come back from the text that they spell. The induction
follows the reading. -/
theorem encode_decode {units : List UInt16} (paired : Paired units) :
    encode (decode units) = units := by
  induction units using decode.induct with
  | case1 => rfl
  | case2 unit =>
    rw [decode, encode, List.flatMap_singleton]
    exact ofChar_alone paired
  | case3 first second rest pair inductionHypothesis =>
    rw [Paired, if_pos pair] at paired
    obtain ⟨high, low⟩ := Bool.and_eq_true_iff.mp pair
    rw [decode, if_pos pair, encode, List.flatMap_cons, ofChar_joined high low]
    exact congrArg ([first, second] ++ ·) (inductionHypothesis paired)
  | case4 first second rest single inductionHypothesis =>
    rw [Paired, if_neg single] at paired
    rw [decode, if_neg single, encode, List.flatMap_cons, ofChar_alone paired.1]
    exact congrArg ([first] ++ ·) (inductionHypothesis paired.2)

/-- A character of the basic plane that paired units spell is one of the units. -/
theorem mem_of_mem_decode {units : List UInt16} (paired : Paired units) {char : Char}
    (spelled : char ∈ decode units) (basic : char.toNat < 0x10000) :
    UInt16.ofNat char.toNat ∈ units := by
  have written : UInt16.ofNat char.toNat ∈ encode (decode units) := by
    refine List.mem_flatMap.mpr ⟨char, spelled, ?_⟩
    rw [ofChar, if_pos basic]
    exact List.mem_singleton_self _
  rwa [encode_decode paired] at written

/-- Some units spell some text. -/
theorem decode_ne_nil {units : List UInt16} (some_ : units ≠ []) : decode units ≠ [] := by
  cases units using decode.induct with
  | case1 => contradiction
  | case2 unit => exact List.cons_ne_nil _ _
  | case3 first second rest pair =>
    rw [decode, if_pos pair]
    exact List.cons_ne_nil _ _
  | case4 first second rest single =>
    rw [decode, if_neg single]
    exact List.cons_ne_nil _ _

/-- A character is written as one unit that is no half of a pair, or as the two halves of one. -/
theorem ofChar_cases (char : Char) :
    (∃ unit, ¬ IsHalf unit ∧ ofChar char = [unit] ∧ alone unit = char) ∨
      ∃ high low, isHigh high = true ∧ isLow low = true ∧ ofChar char = [high, low] ∧
        joined high low = char := by
  have valid : char.toNat.isValidChar := char.valid
  unfold Nat.isValidChar at valid
  unfold ofChar
  by_cases basic : char.toNat < 0x10000
  · left
    have number : (UInt16.ofNat char.toNat).toNat = char.toNat := UInt16.toNat_ofNat_of_lt' basic
    have whole : ¬ IsHalf (UInt16.ofNat char.toNat) := by
      simp only [IsHalf, isHigh, isLow, number, Bool.and_eq_true, decide_eq_true_eq]
      omega
    refine ⟨_, whole, if_pos basic, Char.toNat_inj.mp ?_⟩
    rw [toNat_alone whole, number]
  · right
    have upper : (UInt16.ofNat (0xD800 + (char.toNat - 0x10000) / 0x400)).toNat =
        0xD800 + (char.toNat - 0x10000) / 0x400 :=
      UInt16.toNat_ofNat_of_lt' (by unfold UInt16.size; omega)
    have lower : (UInt16.ofNat (0xDC00 + (char.toNat - 0x10000) % 0x400)).toNat =
        0xDC00 + (char.toNat - 0x10000) % 0x400 :=
      UInt16.toNat_ofNat_of_lt' (by unfold UInt16.size; omega)
    have high : isHigh (UInt16.ofNat (0xD800 + (char.toNat - 0x10000) / 0x400)) = true := by
      simp only [isHigh, upper, Bool.and_eq_true, decide_eq_true_eq]
      omega
    have low : isLow (UInt16.ofNat (0xDC00 + (char.toNat - 0x10000) % 0x400)) = true := by
      simp only [isLow, lower, Bool.and_eq_true, decide_eq_true_eq]
      omega
    refine ⟨_, _, high, low, if_neg basic, Char.toNat_inj.mp ?_⟩
    rw [toNat_joined high low, upper, lower]
    omega

/-- A unit that is no half of a pair is read by itself, whatever follows. -/
theorem decode_cons_of_whole {first : UInt16} (whole : ¬ IsHalf first) (rest : List UInt16) :
    decode (first :: rest) = alone first :: decode rest := by
  cases rest with
  | nil => rfl
  | cons second rest =>
    rw [decode, if_neg fun pair => whole (.inl (Bool.and_eq_true_iff.mp pair).1)]

/-- Nor does it matter to what follows. -/
theorem paired_cons_of_whole {first : UInt16} (whole : ¬ IsHalf first) (rest : List UInt16) :
    Paired (first :: rest) ↔ Paired rest := by
  cases rest with
  | nil => exact iff_of_true whole trivial
  | cons second rest =>
    rw [Paired, if_neg fun pair => whole (.inl (Bool.and_eq_true_iff.mp pair).1)]
    exact and_iff_right whole

/-- A text comes back from its units. The induction is on the text. -/
theorem decode_encode (text : List Char) : decode (encode text) = text := by
  induction text with
  | nil => rfl
  | cons char later inductionHypothesis =>
    rw [encode, List.flatMap_cons]
    obtain ⟨unit, whole, written, read⟩ | ⟨high, low, first, second, written, read⟩ :=
      ofChar_cases char
    · rw [written, List.singleton_append, decode_cons_of_whole whole, read]
      exact congrArg (char :: ·) inductionHypothesis
    · rw [written, List.cons_append, List.cons_append, List.nil_append, decode,
        if_pos (Bool.and_eq_true_iff.mpr ⟨first, second⟩), read]
      exact congrArg (char :: ·) inductionHypothesis

/-- The units of a text have no lone surrogates. -/
theorem paired_encode (text : List Char) : Paired (encode text) := by
  induction text with
  | nil => trivial
  | cons char later inductionHypothesis =>
    rw [encode, List.flatMap_cons]
    obtain ⟨unit, whole, written, -⟩ | ⟨high, low, first, second, written, -⟩ := ofChar_cases char
    · rw [written, List.singleton_append, paired_cons_of_whole whole]
      exact inductionHypothesis
    · rw [written, List.cons_append, List.cons_append, List.nil_append, Paired,
        if_pos (Bool.and_eq_true_iff.mpr ⟨first, second⟩)]
      exact inductionHypothesis

/-- A unit of a text that is no half of a pair is the unit of a character of the text. -/
theorem mem_of_mem_encode {text : List Char} {unit : UInt16} (whole : ¬ IsHalf unit)
    (written : unit ∈ encode text) : alone unit ∈ text := by
  obtain ⟨char, member, among⟩ := List.mem_flatMap.mp written
  obtain ⟨only, -, units, read⟩ | ⟨high, low, first, second, units, -⟩ := ofChar_cases char
  · rw [units, List.mem_singleton] at among
    rwa [among, read]
  · simp only [units, List.mem_cons, List.not_mem_nil, or_false] at among
    rcases among with rfl | rfl
    · exact absurd (.inl first) whole
    · exact absurd (.inr second) whole

/-- A unit that is half of a pair without being next to its partner: a high surrogate that no low
one follows directly, or a low one that no high one directly precedes. -/
def Lone (before : List UInt16) (unit : UInt16) (after : List UInt16) : Prop :=
  (isHigh unit = true ∧ ∀ next ∈ after.head?, ¬ isLow next = true) ∨
    (isLow unit = true ∧ ∀ last ∈ before.getLast?, ¬ isHigh last = true)

/-- None of some units is lone when others stand before them. -/
def NoneLone (front units : List UInt16) : Prop :=
  ∀ before unit after, units = before ++ unit :: after → ¬ Lone (front ++ before) unit after

/-- No unit is both halves. -/
theorem not_high_and_low (unit : UInt16) : ¬ (isHigh unit = true ∧ isLow unit = true) := by
  simp only [isHigh, isLow, Bool.and_eq_true, decide_eq_true_eq]
  omega

/-- The first of them is not, nor are those behind it. -/
theorem noneLone_cons (front : List UInt16) (first : UInt16) (rest : List UInt16) :
    NoneLone front (first :: rest) ↔
      ¬ Lone front first rest ∧ NoneLone (front ++ [first]) rest := by
  constructor
  · intro none_
    refine ⟨by simpa using none_ [] first rest rfl, fun before unit after split => ?_⟩
    simpa using none_ (first :: before) unit after (congrArg (first :: ·) split)
  · rintro ⟨head, behind⟩ before unit after split
    cases before with
    | nil =>
      obtain ⟨rfl, rfl⟩ := List.cons.inj split
      simpa using head
    | cons other before =>
      obtain ⟨rfl, rest_split⟩ := List.cons.inj split
      simpa using behind before unit after rest_split

/-- Units that do not end with a high surrogate make no difference to what is behind them. -/
theorem noneLone_behind {front : List UInt16}
    (ended : ∀ last ∈ front.getLast?, ¬ isHigh last = true) (units : List UInt16) :
    NoneLone front units ↔ NoneLone [] units := by
  have same (before : List UInt16) : (∀ last ∈ (front ++ before).getLast?, ¬ isHigh last = true) ↔
      ∀ last ∈ before.getLast?, ¬ isHigh last = true := by
    cases before with
    | nil => simpa using ended
    | cons first later => simp [List.getLast?_append]
  simp only [NoneLone, Lone, same, List.nil_append]

/-- Paired units are those of which none is lone. The induction follows the reading. -/
theorem paired_iff {units : List UInt16} : Paired units ↔ NoneLone [] units := by
  induction units using decode.induct with
  | case1 => simp [Paired, NoneLone]
  | case2 unit =>
    have nothing : NoneLone [unit] [] := by simp [NoneLone]
    simp [Paired, noneLone_cons, nothing, Lone, IsHalf]
  | case3 first second rest pair inductionHypothesis =>
    obtain ⟨high, low⟩ := Bool.and_eq_true_iff.mp pair
    have notLow : ¬ isLow first = true := fun also => not_high_and_low first ⟨high, also⟩
    have notHigh : ¬ isHigh second = true := fun also => not_high_and_low second ⟨also, low⟩
    have behind : NoneLone [first, second] rest ↔ NoneLone [] rest :=
      noneLone_behind (by simpa using notHigh) rest
    rw [Paired, if_pos pair, inductionHypothesis, ← behind]
    simp [noneLone_cons, Lone, high, low, notLow, notHigh]
  | case4 first second rest single inductionHypothesis =>
    have lone : Lone [] first (second :: rest) ↔ IsHalf first := by
      cases high : isHigh first <;> cases low : isLow second <;>
        simp_all [Lone, IsHalf]
    rw [Paired, if_neg single, inductionHypothesis, noneLone_cons [] first, lone]
    refine and_congr_right fun whole => (noneLone_behind ?_ _).symm
    simpa [IsHalf] using fun high => whole (.inl high)

end HfsPlus.Text.Units
