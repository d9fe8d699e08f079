import HfsPlus.Fork
import HfsPlus.Proofs.Agreement

/-!
# Reads depend on the overflow source alone

A window is the same for everyone who reads through it, so reads of a fork whose
blocks are all known agree in any two monads. A fork that is still to fetch overflow
records reaches them through its `OverflowSource`: two sources that answer alike make
every look-up, every read and every change of the fork agree.
-/

namespace HfsPlus.Agreement

variable {M N : Type → Type} [Monad M] [Monad N] [Logging M] [Logging N]
variable [LawfulMonad M] [LawfulMonad N] (agreement : Agreement M N)

/-- A read of a window delivers the same bytes everywhere. -/
theorem window_readExact (window : Window) (offset wanted : Nat) :
    (agreement.exceptT Error).holds Eq (window.readExact offset wanted : ExceptT Error M Bytes)
      (window.readExact offset wanted) := by
  have read : (agreement.exceptT Error).holds Eq
      (window.read offset wanted : ExceptT Error M Bytes) (window.read offset wanted) := by
    refine holds_next _ (agreement.holds_outcome _) fun bytes => ?_
    dsimp only
    split
    · exact holds_noted _ _ (holds_same _ bytes)
    · exact holds_same _ bytes
  refine holds_next _ read fun bytes => ?_
  split
  · exact holds_same _ bytes
  · exact agreement.holds_throw _

/-- Reads run by run agree when the runs are located alike. Each run shortens what is
left to read, which the induction follows. -/
theorem readRuns (window : Window) (blockSize : Nat) (sized : 0 < blockSize)
    {locateLeft : Nat → ExceptT Error M Mapping} {locateRight : Nat → ExceptT Error N Mapping}
    (alike : ∀ block, (agreement.exceptT Error).holds Eq (locateLeft block) (locateRight block))
    (position left : Nat) :
    (agreement.exceptT Error).holds Eq
      (Fork.readRuns window blockSize sized locateLeft position left)
      (Fork.readRuns window blockSize sized locateRight position left) := by
  induction position, left using Fork.readRuns.induct blockSize sized with
  | case1 position =>
    rw [Fork.readRuns, Fork.readRuns]
    exact holds_same _ _
  | case2 position left more within inductionHypothesis =>
    rw [Fork.readRuns, Fork.readRuns, if_neg more, if_neg more]
    refine holds_next _ (alike _) fun mapping => ?_
    refine holds_next _ (agreement.window_readExact window _ _) fun bytes => ?_
    exact holds_next _ (inductionHypothesis mapping) fun rest => holds_same _ _

/-- Reads of a stream agree when its runs are located alike. -/
theorem readStream (window : Window) (blockSize logicalSize : Nat)
    {locateLeft : Nat → ExceptT Error M Mapping} {locateRight : Nat → ExceptT Error N Mapping}
    (alike : ∀ block, (agreement.exceptT Error).holds Eq (locateLeft block) (locateRight block))
    (offset wanted : Nat) :
    (agreement.exceptT Error).holds Eq
      (Fork.readStream window blockSize logicalSize locateLeft offset wanted)
      (Fork.readStream window blockSize logicalSize locateRight offset wanted) := by
  unfold Fork.readStream
  split
  · exact agreement.readRuns window blockSize _ alike _ _
  · exact holds_same _ _

/-- A stream whose blocks are all known delivers the same bytes everywhere. -/
theorem stream_readExact (stream : ForkStream) (offset wanted : Nat) :
    (agreement.exceptT Error).holds Eq (stream.readExact offset wanted : ExceptT Error M Bytes)
      (stream.readExact offset wanted) := by
  have mapped : (agreement.exceptT Error).holds Eq
      (stream.fork.readMapped stream.window offset wanted : ExceptT Error M Bytes)
      (stream.fork.readMapped stream.window offset wanted) := by
    refine agreement.readStream _ _ _ (fun block => ?_) _ _
    cases stream.fork.mapping? block with
    | none => exact agreement.holds_throw _
    | some mapping =>
      dsimp only
      split
      · exact holds_same _ mapping
      · exact agreement.holds_throw _
  refine holds_next _ mapped fun bytes => ?_
  split
  · exact holds_same _ bytes
  · exact agreement.holds_throw _

/-- Two overflow sources answer alike. -/
def Sources (left : OverflowSource M) (right : OverflowSource N) : Prop :=
  ∀ file kind block, (agreement.exceptT Error).holds Eq (left file kind block)
    (right file kind block)

/-- Sources without records answer alike. -/
theorem sources_none : agreement.Sources OverflowSource.none OverflowSource.none :=
  fun _ _ _ => holds_same _ _

/-- What is done beside a fork agrees as it does alone, and leaves the fork as it is. -/
theorem beside {α β : Type} {related : α → β → Prop} {left : ExceptT Error M α}
    {right : ExceptT Error N β} (same : (agreement.exceptT Error).holds related left right) :
    ((agreement.stateT Fork).exceptT Error).holds related (Fork.beside left)
      (Fork.beside right) := by
  intro fork
  refine agreement.holds_bind same ?_
  rintro leftOutcome rightOutcome outcomes
  exact agreement.holds_pure ⟨outcomes, rfl⟩

section Overflow

variable {agreement} {left : OverflowSource M} {right : OverflowSource N}
variable (alike : agreement.Sources left right)
include alike

/-- Sources that answer alike extend a fork by the same runs. -/
theorem Sources.extend :
    ((agreement.stateT Fork).exceptT Error).holds Eq (Fork.extend left) (Fork.extend right) := by
  unfold Fork.extend
  refine holds_next _ agreement.state_read fun fork => ?_
  dsimp only
  split
  · exact holds_same _ false
  · refine holds_next _ (agreement.beside (alike _ _ _)) ?_
    rintro (_ | record)
    · exact holds_noted _ _ (holds_same _ false)
    · dsimp only
      split
      · exact holds_same _ false
      · refine holds_next _ (agreement.state_written _) fun _ => ?_
        exact holds_noted _ _ (holds_same _ true)

/-- A block is looked up with the same result and the same records fetched. -/
theorem Sources.resolveWithin (block records : Nat) :
    ((agreement.stateT Fork).exceptT Error).holds Eq (Fork.resolveWithin left block records)
      (Fork.resolveWithin right block records) := by
  induction records with
  | zero => exact holds_next _ agreement.state_read fun fork => holds_same _ _
  | succ records inductionHypothesis =>
    unfold Fork.resolveWithin
    refine holds_next _ agreement.state_read fun fork => ?_
    cases fork.mapping? block with
    | some mapping => exact holds_same _ _
    | none =>
      dsimp only
      split
      · exact holds_same _ _
      · refine holds_next _ alike.extend fun extended => ?_
        cases extended with
        | true => exact inductionHypothesis
        | false => exact holds_same _ none

/-- A block lies at the same place. -/
theorem Sources.resolve (block : Nat) :
    ((agreement.stateT Fork).exceptT Error).holds Eq (Fork.resolve left block)
      (Fork.resolve right block) := by
  unfold Fork.resolve
  refine holds_next _ agreement.state_read fun fork => ?_
  split
  · exact holds_same _ none
  · exact alike.resolveWithin _ _

/-- The same records are fetched until a fork is known. -/
theorem Sources.loadWithin (records : Nat) :
    ((agreement.stateT Fork).exceptT Error).holds Eq (Fork.loadWithin left records)
      (Fork.loadWithin right records) := by
  induction records with
  | zero => exact holds_next _ agreement.state_read fun fork => holds_same _ _
  | succ records inductionHypothesis =>
    unfold Fork.loadWithin
    refine holds_next _ agreement.state_read fun fork => ?_
    split
    · exact holds_same _ _
    · refine holds_next _ alike.extend fun extended => ?_
      cases extended with
      | true => exact inductionHypothesis
      | false => exact holds_throw _ _

/-- A fork is made fully known with the same outcome. -/
theorem Sources.loadAll :
    ((agreement.stateT Fork).exceptT Error).holds Eq (Fork.loadAll left)
      (Fork.loadAll right) :=
  holds_next _ agreement.state_read fun _ => alike.loadWithin _

/-- A fork delivers the same bytes, and is known as far afterwards. -/
theorem Sources.readRange (window : Window) (offset wanted : Nat) :
    ((agreement.stateT Fork).exceptT Error).holds Eq (Fork.readRange window left offset wanted)
      (Fork.readRange window right offset wanted) := by
  refine holds_next _ agreement.state_read fun fork => ?_
  refine readStream _ _ _ _ (fun block => ?_) _ _
  refine holds_next _ (alike.resolve block) ?_
  rintro (_ | mapping)
  · exact holds_throw _ _
  · exact holds_same _ mapping

/-- A fork is made ready for reading with the same outcome. -/
theorem Sources.ofFork (window : Window) (fork : Fork) :
    (agreement.exceptT Error).holds Eq (ForkStream.ofFork window fork left)
      (ForkStream.ofFork window fork right) := by
  have loaded := (agreement.stateT Fork).holds_run alike.loadAll fork
  refine agreement.holds_mk (agreement.holds_bind loaded ?_)
  rintro ⟨outcome, known⟩ _ ⟨rfl, rfl⟩
  exact agreement.holds_same _

end Overflow

end HfsPlus.Agreement
