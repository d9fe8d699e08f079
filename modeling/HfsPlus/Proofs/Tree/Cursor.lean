import HfsPlus.Proofs.Tree.Pass
import HfsPlus.Proofs.Tree.Search
import HfsPlus.Proofs.Tree.Trail

/-!
# Cursors hand out what is left of a chain

A cursor hands out the rest of its node and then the records of the leaves behind it, as far as
the links to them lead. Where it stands between two leaves makes no difference: behind the last
record of a leaf it goes on as if it stood before the first record of the next one. At the end of
the chain it stops. Where there is no next leaf, or where it may follow no more links or can count
no more of them, it hands out an error first.
-/

namespace HfsPlus

namespace Access

variable {m : Type → Type} [Monad m] {Key Value : Type} (access : Access m Key Value)

/-- Everything that a cursor still hands out. -/
def drain (cursor : Cursor) : m (List (Except Error (Key × Value))) :=
  access.fold (fun seen item => (seen ++ [item], true)) [] cursor

/-- Everything that a cursor at a place hands out. -/
def drainFrom (position : Option Position) :
    ExceptT Error m (List (Except Error (Key × Value))) := do
  let cursor ← access.recordsFrom position
  access.drain cursor

/-- Everything that a cursor at the first record hands out. -/
def drainFirst : ExceptT Error m (List (Except Error (Key × Value))) := do
  let cursor ← access.first
  access.drain cursor

end Access

section Agreeing

variable {M N : Type → Type} [Monad M] [Monad N] [Logging M] [Logging N]
variable [LawfulMonad M] [LawfulMonad N] {Key Value : Type} {agreement : Agreement M N}
variable {left : Access M Key Value} {right : Access N Key Value}
variable (same : agreement.Accesses left right)
include same

/-- Cursors hand out the same. -/
theorem Agreement.Accesses.drain (cursor : Cursor) :
    agreement.holds Eq (left.drain cursor) (right.drain cursor) := same.fold _ _ cursor

/-- Cursors at the same place hand out the same. -/
theorem Agreement.Accesses.drainFrom (position : Option Position) :
    (agreement.exceptT Error).holds Eq (left.drainFrom position) (right.drainFrom position) :=
  holds_next _ (same.recordsFrom position) fun cursor => agreement.holds_lift (same.drain cursor)

/-- Cursors at the first record hand out the same. -/
theorem Agreement.Accesses.drainFirst :
    (agreement.exceptT Error).holds Eq left.drainFirst right.drainFirst :=
  holds_next _ same.first fun cursor => agreement.holds_lift (same.drain cursor)

end Agreeing

/-- Show the members of a list to a visitor until it says false. -/
def visitAll {σ α : Type} (visit : σ → α → σ × Bool) : σ → List α → σ
  | state, [] => state
  | state, item :: items =>
    match visit state item with
    | (state, true) => visitAll visit state items
    | (state, false) => state

/-- A visitor that keeps everything sees all members. -/
theorem visitAll_collect {α : Type} (seen items : List α) :
    visitAll (fun seen item => (seen ++ [item], true)) seen items = seen ++ items := by
  induction items generalizing seen with
  | nil => rw [visitAll, List.append_nil]
  | cons item items inductionHypothesis =>
    rw [visitAll]
    dsimp only
    rw [inductionHypothesis, List.append_assoc, List.singleton_append]

namespace Tree

variable {Key Value : Type} {tree : Tree Key Value}

/-- A leaf that was got has its records read. -/
theorem readings_of_leafAt {number : UInt32} {leaf : Node} (taken : tree.leafAt number = .ok leaf) :
    tree.readings leaf = (tree.recordsOf leaf).map .ok := by
  obtain ⟨stored, kind⟩ := leafAt_eq_ok.mp taken
  have verified := (tree.stored_eq_ok.mp stored).2
  have count := length_recordsOf verified kind
  refine List.ext_getElem (by simp [readings, count]) fun index _ inside => ?_
  rw [List.length_map] at inside
  simp [readings, leafRecord_of_verified verified kind index inside]

/-- What a cursor hands out where the way along the leaves ends: nothing if the chain does, and
otherwise why there is no next leaf. -/
def closing {α : Type} : Except Error Unit → List (Except Error α)
  | .ok () => []
  | .error cause => [.error cause]

variable (tree) in
/-- Why a way is given up on which there is a step more than the tree has nodes: it is too long, or
a word counts no more steps. -/
def exhausted (number : UInt32) : Error :=
  if tree.header.totalNodes.toNat + 1 = UInt32.size then .overflow
  else tree.corrupt number .chainTooLong

section Steps

variable {σ : Type} (visit : σ → Except Error (Key × Value) → σ × Bool) (state : σ) {node : Node}
variable {index : Nat} {steps : UInt32}

/-- Within a node a cursor hands out the next record. -/
theorem fold_inside (inside : index < node.count) :
    (tree.direct (m := Id)).fold visit state ⟨some node, index, steps⟩ =
      match visit state (tree.leafRecord node index) with
      | (state, true) => (tree.direct (m := Id)).fold visit state ⟨some node, index + 1, steps⟩
      | (state, false) => pure state := by
  rw [Access.fold, Access.next, Access.nextIn]
  dsimp only
  rw [dif_pos inside]
  rfl

/-- At its end it hands out nothing. -/
theorem fold_nowhere : (tree.direct (m := Id)).fold visit state ⟨none, index, steps⟩ = pure state := by
  rw [Access.fold]
  rfl

/-- A last item is shown whatever the visitor then says. -/
theorem fold_last (item : Except Error (Key × Value)) :
    (match visit state item with
      | (state, true) => (tree.direct (m := Id)).fold visit state ⟨none, index, steps⟩
      | (state, false) => pure state) = pure (visitAll visit state [item]) := by
  rw [visitAll]
  rcases visit state item with ⟨next, _ | _⟩
  · rfl
  · exact fold_nowhere visit next

section Behind

variable (atEnd : node.count ≤ index)
include atEnd

/-- Behind the last node a cursor is at its end. -/
theorem fold_ended (last : node.forwardLink = 0) :
    (tree.direct (m := Id)).fold visit state ⟨some node, index, steps⟩ = pure state := by
  rw [Access.fold, Access.next, Access.nextIn]
  dsimp only
  rw [dif_neg (Nat.not_lt.mpr atEnd), if_pos last]
  rfl

variable (more : node.forwardLink ≠ 0)
include more

/-- If it can count no more links, it hands out an error. -/
theorem fold_uncounted (full : steps.toNat + 1 = UInt32.size) :
    (tree.direct (m := Id)).fold visit state ⟨some node, index, steps⟩ =
      pure (visitAll visit state [.error .overflow]) := by
  have counted := checkedNext_eq_error.mpr ⟨rfl, full⟩
  rw [Access.fold, Access.next, Access.nextIn]
  dsimp only
  rw [dif_neg (Nat.not_lt.mpr atEnd), if_neg more]
  split
  next cause same =>
    obtain ⟨⟩ := counted.symm.trans same
    exact fold_last visit state _
  next same => cases counted.symm.trans same

variable {further : UInt32} (counted : checkedNext steps = .ok further)
include counted

/-- If it may follow no more links, it hands out an error. -/
theorem fold_tooLong (excess : tree.header.totalNodes < further) :
    (tree.direct (m := Id)).fold visit state ⟨some node, index, steps⟩ =
      pure (visitAll visit state [.error (tree.corrupt node.number .chainTooLong)]) := by
  rw [Access.fold, Access.next, Access.nextIn]
  dsimp only
  rw [dif_neg (Nat.not_lt.mpr atEnd), if_neg more]
  split
  next same => cases counted.symm.trans same
  next same =>
    obtain ⟨⟩ := counted.symm.trans same
    rw [direct_tree, if_pos excess]
    exact fold_last visit state _

variable (within : further ≤ tree.header.totalNodes)
include within

/-- If there is no next leaf, it hands out why not. -/
theorem fold_refused {cause : Error} (refused : tree.leafAt node.forwardLink = .error cause) :
    (tree.direct (m := Id)).fold visit state ⟨some node, index, steps⟩ =
      pure (visitAll visit state [.error cause]) := by
  rw [Access.fold, Access.next, Access.nextIn]
  dsimp only
  rw [dif_neg (Nat.not_lt.mpr atEnd), if_neg more]
  split
  next same => cases counted.symm.trans same
  next same =>
    obtain ⟨⟩ := counted.symm.trans same
    rw [direct_tree, if_neg (UInt32.not_lt.mpr within), direct_node, if_pos rfl]
    cases stored : tree.stored node.forwardLink with
    | error other =>
      rw [leafAt, stored] at refused
      obtain ⟨⟩ := refused
      exact fold_last visit state _
    | ok next =>
      by_cases kind : next.kind = .leaf
      · rw [leafAt_eq_ok.mpr ⟨stored, kind⟩] at refused
        cases refused
      · rw [leafAt_of_other stored kind] at refused
        obtain ⟨⟩ := refused
        dsimp only [bind, pure]
        rw [if_neg kind]
        exact fold_last visit state _

/-- Otherwise it goes on as if before the first record of the next leaf. -/
theorem fold_onward {next : Node} (taken : tree.leafAt node.forwardLink = .ok next) :
    (tree.direct (m := Id)).fold visit state ⟨some node, index, steps⟩ =
      (tree.direct (m := Id)).fold visit state ⟨some next, 0, further⟩ := by
  obtain ⟨stored, kind⟩ := leafAt_eq_ok.mp taken
  rw [Access.fold, Access.next, Access.nextIn]
  dsimp only
  rw [dif_neg (Nat.not_lt.mpr atEnd), if_neg more]
  split
  next same => cases counted.symm.trans same
  next same =>
    obtain ⟨⟩ := counted.symm.trans same
    rw [direct_tree, if_neg (UInt32.not_lt.mpr within), direct_node, if_pos rfl, stored,
      Access.fold, Access.next]
    dsimp only [bind, pure]
    rw [if_pos kind]
    cases (tree.direct (m := Id)).nextIn further next 0 <;> rfl

end Behind

/-- If it has followed as many links as the tree has nodes, it hands out an error. -/
theorem fold_exhausted (atEnd : node.count ≤ index) (more : node.forwardLink ≠ 0)
    (all : steps = tree.header.totalNodes) :
    (tree.direct (m := Id)).fold visit state ⟨some node, index, steps⟩ =
      pure (visitAll visit state [.error (tree.exhausted node.number)]) := by
  unfold exhausted
  rw [← all]
  split
  next full => exact fold_uncounted visit state atEnd more full
  next room =>
    cases counted : checkedNext steps with
    | error cause => exact absurd (checkedNext_eq_error.mp counted).2 room
    | ok further =>
      refine fold_tooLong visit state atEnd more counted ?_
      rw [← all, UInt32.lt_iff_toNat_lt, checkedNext_eq_ok.mp counted]
      exact Nat.lt_succ_self _

/-- If it is known what a cursor shows once it is behind the records of a node, then from
within the node it shows the records that are left before that. The induction is on how
many these are. -/
theorem fold_readings {rest : List (Except Error (Key × Value))}
    (onward : ∀ state index, node.count ≤ index →
      (tree.direct (m := Id)).fold visit state ⟨some node, index, steps⟩ =
        pure (visitAll visit state rest)) :
    (tree.direct (m := Id)).fold visit state ⟨some node, index, steps⟩ =
      pure (visitAll visit state ((tree.readings node).drop index ++ rest)) := by
  have count : (tree.readings node).length = node.count := by
    rw [readings, List.length_map, List.length_range]
  generalize remaining : node.count - index = left
  induction left generalizing state index with
  | zero =>
    rw [onward state index (by omega), List.drop_eq_nil_of_le (by omega)]
    rfl
  | succ left inductionHypothesis =>
    have inside : index < (tree.readings node).length := by omega
    have reading : (tree.readings node)[index] = tree.leafRecord node index := by simp [readings]
    rw [fold_inside visit state (by omega), List.drop_eq_getElem_cons inside, reading,
      List.cons_append, visitAll]
    rcases visit state (tree.leafRecord node index) with ⟨next, _ | _⟩
    · rfl
    · exact inductionHypothesis next (by omega)

/-- Along a trail of leaves a cursor shows what is left of its node and then all records of the
leaves, before what it is known to show behind the last of them. The induction is on the trail. -/
theorem fold_trail {start behind : UInt32} {leaves : List Node}
    (trail : Trail tree.leafAt start leaves behind) (linked : node.forwardLink = start)
    (room : steps.toNat + leaves.length ≤ tree.header.totalNodes.toNat)
    {rest : List (Except Error (Key × Value))}
    (onward : ∀ state index (later : UInt32), later.toNat = steps.toNat + leaves.length →
      (leaves.getLastD node).count ≤ index →
      (tree.direct (m := Id)).fold visit state ⟨some (leaves.getLastD node), index, later⟩ =
        pure (visitAll visit state rest)) :
    (tree.direct (m := Id)).fold visit state ⟨some node, index, steps⟩ =
      pure (visitAll visit state
        ((tree.readings node).drop index ++ ((tree.recordsIn leaves).map .ok ++ rest))) := by
  induction trail generalizing state node index steps with
  | here => exact fold_readings visit state fun state index => onward state index steps rfl
  | @step start next leaves behind more taken _ inductionHypothesis =>
    rw [List.getLastD_cons] at onward
    rw [List.length_cons] at room onward
    obtain ⟨further, counted, within⟩ := exists_checkedNext
      (show steps < tree.header.totalNodes from UInt32.lt_iff_toNat_lt.mpr (by omega))
    have one := checkedNext_eq_ok.mp counted
    refine fold_readings visit state ?_
    intro state index atEnd
    rw [fold_onward visit state atEnd (linked ▸ more) counted within (linked ▸ taken),
      inductionHypothesis state rfl (by omega) (fun state index later counts =>
        onward state index later (by omega)), List.drop_zero, readings_of_leafAt taken,
      recordsIn_cons, List.map_append, List.append_assoc]

/-- Where the way along the leaves ends, a cursor shows their records and ends as the way does, if
it may follow as many links as this takes. -/
theorem fold_ends {leaves : List Node} {outcome : Except Error Unit}
    (ends : Ends tree.leafAt node.forwardLink leaves outcome)
    (room : steps.toNat + (leaves.length + (closing outcome : List (Except Error Unit)).length) ≤
      tree.header.totalNodes.toNat) :
    (tree.direct (m := Id)).fold visit state ⟨some node, index, steps⟩ =
      pure (visitAll visit state ((tree.readings node).drop index ++
        ((tree.recordsIn leaves).map .ok ++ closing outcome))) := by
  cases ends with
  | chain trail =>
    refine fold_trail visit state trail rfl room ?_
    intro state index later counts atEnd
    exact fold_ended visit state atEnd (trail.forwardLink_last node rfl)
  | @refused behind cause trail more refused =>
    change steps.toNat + (leaves.length + 1) ≤ _ at room
    have last := trail.forwardLink_last node rfl
    refine fold_trail visit state trail rfl (by omega) ?_
    intro state index later counts atEnd
    obtain ⟨further, counted, within⟩ := exists_checkedNext
      (show later < tree.header.totalNodes from UInt32.lt_iff_toNat_lt.mpr (by omega))
    exact fold_refused visit state atEnd (last ▸ more) counted within (last ▸ refused)

/-- Where it goes on behind as many leaves as a cursor may follow links, it shows their records and
then an error. -/
theorem fold_cut {leaves : List Node} {behind : UInt32}
    (trail : Trail tree.leafAt node.forwardLink leaves behind) (more : behind ≠ 0)
    (all : leaves.length = tree.header.totalNodes.toNat) :
    (tree.direct (m := Id)).fold visit state ⟨some node, index, 0⟩ =
      pure (visitAll visit state ((tree.readings node).drop index ++
        ((tree.recordsIn leaves).map .ok ++
          [.error (tree.exhausted (leaves.getLastD node).number)]))) := by
  have none_ : (0 : UInt32).toNat = 0 := rfl
  refine fold_trail visit state trail rfl (by omega) ?_
  intro state index later counts atEnd
  exact fold_exhausted visit state atEnd (trail.forwardLink_last node rfl ▸ more)
    (UInt32.toNat_inj.mp (by omega))

/-- A cursor in a chain shows what is left of its leaf and then all records behind it. -/
theorem fold_chain {behind : List Node} (sound : tree.Leaves (node :: behind))
    (linked : Linked node.forwardLink behind) :
    (tree.direct (m := Id)).fold visit state ⟨some node, index, 0⟩ =
      pure (visitAll visit state
        (((tree.recordsOf node).drop index ++ tree.recordsIn behind).map .ok)) := by
  have later : tree.Leaves behind := fun leaf member => sound leaf (List.mem_cons_of_mem _ member)
  have room : (0 : UInt32).toNat + behind.length ≤ tree.header.totalNodes.toNat := by
    rw [UInt32.toNat_zero, Nat.zero_add]
    exact linked.length_le later
  rw [fold_ends visit state (.chain (linked.trail later)) room,
    readings_of_leafAt (leafAt_eq_ok.mpr (sound node List.mem_cons_self)), closing,
    List.append_nil, List.map_append, List.map_drop]

end Steps

/-- A cursor in a chain hands out what is left of its leaf and then all records behind
it. -/
theorem drain_chain {node : Node} {index : Nat} {behind : List Node}
    (sound : tree.Leaves (node :: behind)) (linked : Linked node.forwardLink behind) :
    (tree.direct (m := Id)).drain ⟨some node, index, 0⟩ =
      pure (((tree.recordsOf node).drop index ++ tree.recordsIn behind).map .ok) := by
  rw [Access.drain, fold_chain _ _ sound linked, visitAll_collect, List.nil_append]

/-- The same with a cursor that is put at a place first. -/
theorem drainFrom_chain {node : Node} {index : Nat} {behind : List Node}
    (sound : tree.Leaves (node :: behind)) (linked : Linked node.forwardLink behind) :
    ((tree.direct (m := Id)).drainFrom (some ⟨node.number, index⟩)).run =
      .ok (((tree.recordsOf node).drop index ++ tree.recordsIn behind).map .ok) := by
  have stored := (sound node List.mem_cons_self).1
  rw [Access.drainFrom, run_bind_direct, Access.recordsFrom, run_bind_direct, direct_node,
    if_pos rfl, stored]
  change (ExceptT.lift ((tree.direct (m := Id)).drain ⟨some node, index, 0⟩)).run = _
  rw [drain_chain sound linked]
  rfl

end Tree

end HfsPlus
