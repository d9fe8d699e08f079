import HfsPlus.Proofs.Tree.Lookup
import HfsPlus.Proofs.Tree.Pass
import HfsPlus.Proofs.Tree.Trail

/-!
# Walks and cursors end on every chain

A walk shows at most one node more than the tree has, and a cursor follows at most as many links as
the tree has nodes. Both bounds are wide enough for every chain that ends, since it has no node
twice, and are reached on every chain that comes back. So where the forward links end, a walk shows
each node once, in order, and fails only if a node cannot be got, for the reason why not; where they
come back, it fails for a chain that is too long, unless the tree claims so many nodes that the steps
outgrow their word first. Cursors do the same with leaves, and hand out the records of those that
they came to.
-/

namespace HfsPlus

variable {Key Value : Type}

/-- Walk along a chain and note which nodes are shown to a visitor that knows those before. -/
def Access.tour {m : Type → Type} [Monad m] (access : Access m Key Value) (verified : Bool)
    (visit : List Node → Node → Except Error Bool) (start : UInt32) :
    m (List Node × Except Error Unit) :=
  access.walk verified (fun shown node => return (shown ++ [node], visit shown node)) start []

/-- A visitor that wants to see everything. -/
def everything (_ : List Node) (_ : Node) : Except Error Bool := .ok true

namespace Tree

variable (tree : Tree Key Value)

section Walks

variable (verified : Bool) (visit : List Node → Node → Except Error Bool)

/-- A walk without a cache from a node on, with some steps taken and some nodes shown before. -/
def tourAfter (steps current : UInt32) (shown : List Node) : List Node × Except Error Unit :=
  ((tree.direct (m := Id)).walkAfter verified
    (fun shown node => return (shown ++ [node], visit shown node)) steps current shown).run

/-- A walk shows no more nodes than it may. The induction is on the steps that were taken. -/
theorem length_tourAfter_le (steps current : UInt32) (shown : List Node) :
    (tree.tourAfter verified visit steps current shown).1.length ≤
      shown.length + (tree.header.totalNodes.toNat + 1 - steps.toNat) := by
  unfold tourAfter
  induction steps using checkedNext_induction generalizing current shown with
  | count steps inductionHypothesis =>
    by_cases more : current = 0
    · rw [more, walkAfter_ended]
      exact Nat.le_add_right _ _
    rcases UInt32.lt_or_le tree.header.totalNodes steps with excess | within
    · rw [walkAfter_tooLong tree verified _ _ more excess]
      exact Nat.le_add_right _ _
    cases got : tree.got verified current with
    | error cause =>
      rw [walkAfter_refused tree verified _ _ more within got]
      exact Nat.le_add_right _ _
    | ok node =>
      have room := UInt32.le_iff_toNat_le.mp within
      have added : (shown ++ [node]).length = shown.length + 1 := List.length_append
      rw [walkAfter_shown tree verified _ _ more within got]
      dsimp only [Id.run, pure]
      rcases visit shown node with cause | _ | _ <;> dsimp only
      · omega
      · omega
      cases counted : checkedNext steps with
      | error cause =>
        dsimp only
        omega
      | ok further =>
        have one := checkedNext_eq_ok.mp counted
        have later := inductionHypothesis further counted node.forwardLink (shown ++ [node])
        dsimp only [Id.run, pure] at later ⊢
        omega

variable {tree verified}

/-- A walk that shows everything goes along every trail that it may be shown. -/
theorem tourAfter_trail {steps start behind : UInt32} {nodes : List Node}
    (trail : Trail (tree.got verified) start nodes behind)
    (room : steps.toNat + nodes.length ≤ tree.header.totalNodes.toNat) (shown : List Node) :
    ∃ later : UInt32, later.toNat = steps.toNat + nodes.length ∧
      tree.tourAfter verified everything steps start shown =
        tree.tourAfter verified everything later behind (shown ++ nodes) := by
  induction trail generalizing steps shown with
  | here => exact ⟨steps, rfl, by rw [List.append_nil]⟩
  | @step start node nodes behind more got _ inductionHypothesis =>
    rw [List.length_cons] at room ⊢
    have below : steps < tree.header.totalNodes := UInt32.lt_iff_toNat_lt.mpr (by omega)
    obtain ⟨further, counted, -⟩ := exists_checkedNext below
    have one := checkedNext_eq_ok.mp counted
    have left : further.toNat + nodes.length ≤ tree.header.totalNodes.toNat := by omega
    obtain ⟨later, counts, walked⟩ := inductionHypothesis left (shown ++ [node])
    refine ⟨later, by omega, ?_⟩
    rw [tourAfter, walkAfter_shown tree verified _ _ more (UInt32.le_of_lt below) got, counted]
    change tree.tourAfter verified everything further node.forwardLink _ = _
    rw [walked, List.append_assoc, List.singleton_append]

end Walks

section Tours

variable {tree} {verified : Bool} {start : UInt32}

/-- Where the way ends, a walk shows its nodes and ends as it does. -/
theorem tourAfter_ends {nodes : List Node} {outcome : Except Error Unit}
    (ends : Ends (tree.got verified) start nodes outcome) :
    tree.tourAfter verified everything 0 start [] = (nodes, outcome) := by
  have short := (ends.distinct (tree.numbered_got verified)).2
  have room : (0 : UInt32).toNat + nodes.length ≤ tree.header.totalNodes.toNat := by
    rw [UInt32.toNat_zero]
    omega
  cases ends with
  | chain trail =>
    obtain ⟨later, -, walked⟩ := tourAfter_trail trail room []
    rw [walked, tourAfter, walkAfter_ended, List.nil_append]
  | refused trail more refused =>
    obtain ⟨later, counts, walked⟩ := tourAfter_trail trail room []
    have within : later ≤ tree.header.totalNodes := UInt32.le_iff_toNat_le.mpr (by omega)
    rw [walked, tourAfter, walkAfter_refused tree verified _ _ more within refused,
      List.nil_append]

/-- Where it comes back, a walk fails after some nodes. -/
theorem tourAfter_circles (circles : Circles (tree.got verified) start) :
    ∃ shown number, Trail (tree.got verified) start shown number ∧
      tree.tourAfter verified everything 0 start [] = (shown, .error (tree.exhausted number)) := by
  have numbered := tree.numbered_got verified
  obtain ⟨nodes, last, trail, long, -⟩ := circles.long numbered tree.header.totalNodes.toNat
  obtain ⟨more, node, got, further⟩ := (circles.onward numbered trail).next numbered
  have room : (0 : UInt32).toNat + nodes.length ≤ tree.header.totalNodes.toNat := by
    rw [UInt32.toNat_zero]
    omega
  obtain ⟨later, counts, walked⟩ := tourAfter_trail trail room []
  rw [UInt32.toNat_zero] at counts
  obtain rfl : later = tree.header.totalNodes := UInt32.toNat_inj.mp (by omega)
  refine ⟨nodes ++ [node], node.forwardLink, trail.append (.step more got .here), ?_⟩
  rw [walked, tourAfter, walkAfter_shown tree verified _ _ more (UInt32.le_refl _) got, exhausted,
    List.nil_append]
  cases counted : checkedNext tree.header.totalNodes with
  | error cause =>
    obtain ⟨rfl, full⟩ := checkedNext_eq_error.mp counted
    rw [if_pos full]
    rfl
  | ok next =>
    have one := checkedNext_eq_ok.mp counted
    have below : next.toNat < UInt32.size := next.toNat_lt
    rw [if_neg (by omega)]
    exact walkAfter_tooLong tree verified _ _ (further.next numbered).1
      (UInt32.lt_iff_toNat_lt.mpr (by omega))

end Tours

section Cursors

variable {tree}

/-- A tree that stores a node has one. -/
theorem totalNodes_pos {number : UInt32} {node : Node} (stored : tree.stored number = .ok node) :
    0 < tree.header.totalNodes.toNat :=
  Nat.zero_lt_of_lt (UInt32.lt_iff_toNat_lt.mp (inside_of_stored stored))

/-- An iteration ends with one error or none. -/
theorem length_closing_le {α : Type} (outcome : Except Error Unit) :
    (closing outcome : List (Except Error α)).length ≤ 1 := by
  cases outcome with
  | ok => exact Nat.zero_le 1
  | error cause => exact Nat.le_refl 1

/-- Where the way along the leaves ends, a cursor hands out their records and ends as it does. -/
theorem drain_ends {number : UInt32} {node : Node} (stored : tree.stored number = .ok node)
    {leaves : List Node} {outcome : Except Error Unit}
    (ends : Ends tree.leafAt node.forwardLink leaves outcome) (index : Nat) :
    (tree.direct (m := Id)).drain ⟨some node, index, 0⟩ =
      pure ((tree.readings node).drop index ++
        ((tree.recordsIn leaves).map .ok ++ closing outcome)) := by
  have short := (ends.distinct tree.numbered_leafAt).2
  have last : (closing outcome : List (Except Error Unit)).length ≤ 1 := length_closing_le outcome
  have some_ := totalNodes_pos stored
  have none_ : (0 : UInt32).toNat = 0 := rfl
  rw [Access.drain, fold_ends _ _ ends (by omega), visitAll_collect, List.nil_append]

/-- Where it comes back, a cursor hands out the records of as many leaves as it may follow links,
and then an error. -/
theorem drain_circles {node : Node} (circles : Circles tree.leafAt node.forwardLink)
    (index : Nat) :
    ∃ leaves behind number, leaves.length = tree.header.totalNodes.toNat ∧
      Trail tree.leafAt node.forwardLink leaves behind ∧
      (tree.direct (m := Id)).drain ⟨some node, index, 0⟩ =
        pure ((tree.readings node).drop index ++ ((tree.recordsIn leaves).map .ok ++
          [.error (tree.exhausted number)])) := by
  obtain ⟨leaves, behind, trail, long, more⟩ :=
    circles.long tree.numbered_leafAt tree.header.totalNodes.toNat
  refine ⟨leaves, behind, (leaves.getLastD node).number, long, trail, ?_⟩
  rw [Access.drain, fold_cut _ _ trail more long, visitAll_collect, List.nil_append]

/-- A stored node has at most as many records as its descriptor can count. -/
theorem length_readings_le {number : UInt32} {node : Node}
    (stored : tree.stored number = .ok node) :
    (tree.readings node).length ≤ 65535 := by
  obtain ⟨_, _, read⟩ := bind_eq_ok.mp (tree.stored_eq_ok.mp stored).1
  obtain ⟨bytes, _, parsed⟩ := bind_eq_ok.mp read
  rw [readings, List.length_map, List.length_range, Node.count_of_parse parsed]
  exact Nat.le_of_lt_succ (UInt16.toNat_lt _)

/-- So do the leaves of a trail. -/
theorem Trail.length_recordsIn_le {start behind : UInt32} {leaves : List Node}
    (trail : Trail tree.leafAt start leaves behind) :
    (tree.recordsIn leaves).length ≤ leaves.length * 65535 := by
  induction trail with
  | here => exact Nat.le_refl _
  | @step _ leaf leaves _ _ taken _ inductionHypothesis =>
    have first := length_readings_le (leafAt_eq_ok.mp taken).1
    rw [readings_of_leafAt taken, List.length_map] at first
    rw [recordsIn_cons, List.length_append, List.length_cons]
    omega

/-- Whatever the links are, a cursor in a stored node hands out what is left of it, the records of
the leaves along a trail, which may be as long as the tree has nodes, and at most one item more,
which is an error. -/
theorem drain_shape {number : UInt32} {node : Node} (stored : tree.stored number = .ok node)
    (index : Nat) :
    ∃ leaves behind last, Trail tree.leafAt node.forwardLink leaves behind ∧
      leaves.length ≤ tree.header.totalNodes.toNat ∧ last.length ≤ 1 ∧
      (∀ record, .ok record ∉ last) ∧
      (tree.direct (m := Id)).drain ⟨some node, index, 0⟩ =
        pure ((tree.readings node).drop index ++ ((tree.recordsIn leaves).map .ok ++ last)) := by
  rcases ends_or_circles tree.numbered_leafAt node.forwardLink with
    ⟨leaves, outcome, ends⟩ | circles
  · obtain ⟨behind, trail⟩ := ends.trail
    have short := (ends.distinct tree.numbered_leafAt).2
    refine ⟨leaves, behind, closing outcome, trail, by omega, length_closing_le outcome, ?_,
      drain_ends stored ends index⟩
    intro record member
    cases outcome <;> simp [closing] at member
  · obtain ⟨leaves, behind, number, long, trail, drained⟩ := drain_circles circles index
    refine ⟨leaves, behind, [.error (tree.exhausted number)], trail, Nat.le_of_eq long,
      Nat.le_refl 1, ?_, drained⟩
    intro record member
    simp at member

end Cursors

/-- What a walk shows from a start, depending on the visitor. However its visitor decides, it shows
no more nodes than there are, and one. A visitor that wants to see everything is shown the nodes up
to the end of the way, none of them twice, and learns how it ends; if the way comes back, the walk
fails for being too long, or, if the tree claims all the nodes that a word counts, for an overflow.
Every way ends or comes back. -/
structure WalksEnd (verified : Bool) (start : UInt32)
    (walked : (List Node → Node → Except Error Bool) → List Node × Except Error Unit) : Prop where
  bounded : ∀ visit, (walked visit).1.length ≤ tree.header.totalNodes.toNat + 1
  straight : ∀ nodes outcome, Ends (tree.got verified) start nodes outcome →
    walked everything = (nodes, outcome) ∧ (nodes.map Node.number).Nodup
  circular : Circles (tree.got verified) start → ∃ shown number,
    Trail (tree.got verified) start shown number ∧
      walked everything = (shown, .error (tree.exhausted number))
  settled : (∃ nodes outcome, Ends (tree.got verified) start nodes outcome) ∨
    Circles (tree.got verified) start

/-- What a cursor hands out that is put at a place, or at the end. At a place in a node that is not
stored there is no cursor. In a stored one there is, and it hands out only so many items: what is
left of the node, then the records of the leaves up to the end of the way, none of which is met
twice, and why there is no further leaf unless the chain is at its end. If the way comes back, the
last item is an error for being too long. -/
structure CursorEnds (position : Option Position)
    (drained : Except Error (List (Except Error (Key × Value)))) : Prop where
  nowhere : position = none → drained = .ok []
  refused : ∀ place cause, position = some place → tree.stored place.node = .error cause →
    drained = .error cause
  bounded : ∀ items, drained = .ok items →
    items.length ≤ (tree.header.totalNodes.toNat + 1) * 65535 + 1
  straight : ∀ place node leaves outcome, position = some place →
    tree.stored place.node = .ok node → Ends tree.leafAt node.forwardLink leaves outcome →
    (leaves.map Node.number).Nodup ∧ drained = .ok ((tree.readings node).drop place.index ++
      ((tree.recordsIn leaves).map .ok ++ closing outcome))
  circular : ∀ place node, position = some place → tree.stored place.node = .ok node →
    Circles tree.leafAt node.forwardLink → ∃ leaves behind number,
    Trail tree.leafAt node.forwardLink leaves behind ∧ drained = .ok
      ((tree.readings node).drop place.index ++ ((tree.recordsIn leaves).map .ok ++
        [.error (tree.exhausted number)]))

/-- Walks without a cache end. -/
theorem walksEnd_direct (verified : Bool) (start : UInt32) :
    tree.WalksEnd verified start fun visit =>
      ((tree.direct (m := Id)).tour verified visit start).run where
  bounded visit := by
    have short := tree.length_tourAfter_le verified visit 0 start []
    rwa [List.length_nil, Nat.zero_add, UInt32.toNat_zero, Nat.sub_zero] at short
  straight nodes outcome ends :=
    ⟨tourAfter_ends ends, (ends.distinct (tree.numbered_got verified)).1⟩
  circular circles := tourAfter_circles circles
  settled := ends_or_circles (tree.numbered_got verified) start

/-- A cursor that is put at the end is there. -/
theorem drainFrom_none : ((tree.direct (m := Id)).drainFrom none).run = .ok [] := by
  have nothing : (tree.direct (m := Id)).drain ⟨none, 0, 0⟩ = pure [] :=
    fold_nowhere _ _
  change (ExceptT.lift ((tree.direct (m := Id)).drain
    ⟨none, 0, 0⟩)).run = _
  rw [nothing]
  rfl

/-- A cursor that is put at a place starts in the node there, if it is stored. -/
theorem drainFrom_some (place : Position) :
    ((tree.direct (m := Id)).drainFrom (some place)).run =
      (tree.stored place.node).bind fun node => .ok ((tree.direct (m := Id)).drain
        ⟨some node, place.index, 0⟩).run := by
  rw [Access.drainFrom, run_bind_direct, Access.recordsFrom, run_bind_direct, direct_node,
    if_pos rfl]
  cases tree.stored place.node with
  | error cause => rfl
  | ok node => rfl

/-- Cursors without a cache end. -/
theorem cursorEnds_direct (position : Option Position) :
    tree.CursorEnds position ((tree.direct (m := Id)).drainFrom position).run where
  nowhere := by
    rintro rfl
    exact tree.drainFrom_none
  refused := by
    rintro place cause rfl refused
    rw [drainFrom_some, refused]
    rfl
  bounded := by
    intro items drained
    cases position with
    | none =>
      rw [drainFrom_none] at drained
      obtain ⟨⟩ := drained
      exact Nat.zero_le _
    | some place =>
      rw [drainFrom_some] at drained
      obtain ⟨node, stored, ⟨⟩⟩ := bind_eq_ok.mp drained
      obtain ⟨leaves, _, last, trail, short, single, -, shape⟩ := drain_shape stored place.index
      have own : ((tree.readings node).drop place.index).length ≤ 65535 :=
        Nat.le_trans (List.drop_sublist ..).length_le (length_readings_le stored)
      have later := trail.length_recordsIn_le
      rw [shape]
      change ((tree.readings node).drop place.index ++ _).length ≤ _
      rw [List.length_append, List.length_append, List.length_map]
      omega
  straight := by
    rintro place node leaves outcome rfl stored ends
    rw [drainFrom_some, stored]
    exact ⟨(ends.distinct tree.numbered_leafAt).1,
      congrArg Except.ok (drain_ends stored ends place.index)⟩
  circular := by
    rintro place node rfl stored circles
    rw [drainFrom_some, stored]
    obtain ⟨leaves, behind, number, _, trail, drained⟩ := drain_circles circles place.index
    exact ⟨leaves, behind, number, trail, congrArg Except.ok drained⟩

/-- **Walks and cursors end on every chain, and only chains that come back are too long.** In every
tree, whatever its bytes are and whatever was asked of it before: a walk, be it through sound nodes
or damaged ones too, shows at most one node more than the tree has, however its visitor decides. If
the forward links from its start lead to zero, a visitor that wants to see everything is shown the
nodes of the chain, each once and in order; if they lead to a node that cannot be got, it is shown
the nodes before and the walk fails for the reason why not; and if they lead back to a node that was
met, the walk fails for being too long. A cursor at any place, and one at the first record, hands
out only so many items, those of its node and of the leaves behind it; and it tells in the same way
whether the chain of leaves ends, is broken, or comes back. A tree that claims `2 ^ 32 - 1` nodes is
the only exception: there the steps along a way that comes back outgrow their word, and the failure
is an overflow. -/
theorem chains_end (capacity : Nat) (requests : List (Request Key)) :
    let access := tree.cached (m := Id)
    let history := ((access.replies [] requests).run (.empty capacity)).2
    (∀ verified start, tree.WalksEnd verified start fun visit =>
      ((access.tour verified visit start).run history).1) ∧
    (∀ position, tree.CursorEnds position ((access.drainFrom position).run.run history).1) ∧
    tree.CursorEnds access.firstPosition (access.drainFirst.run.run history).1 := by
  intro access history
  have kept : tree.Keeps history := ((tree.keeps_empty capacity).replies tree [] requests).2
  let agreement := Agreement.ofInvariant tree.Keeps
  have same := tree.cached_direct
  have walked (verified : Bool) (visit : List Node → Node → Except Error Bool) (start : UInt32) :
      ((access.tour verified visit start).run history).1 =
        ((tree.direct (m := Id)).tour verified visit start).run :=
    (same.walk verified (fun _ _ => agreement.holds_same _) start [] history kept).1
  have drained (position : Option Position) : ((access.drainFrom position).run.run history).1 =
      ((tree.direct (m := Id)).drainFrom position).run :=
    (agreement.holds_run (same.drainFrom position) history kept).1
  refine ⟨fun verified start => ?_, fun position => ?_, ?_⟩
  · simp only [walked]
    exact tree.walksEnd_direct verified start
  · rw [drained]
    exact tree.cursorEnds_direct position
  · change tree.CursorEnds access.firstPosition
      ((access.drainFrom access.firstPosition).run.run history).1
    rw [drained]
    exact tree.cursorEnds_direct _

/-- The bytes of the sample, in which the second leaf links to some node. -/
def relinkedImage (link : UInt8) : Bytes :=
  sampleImage.take 1536 ++ nodeBytes 512 link 255 1 [[1, 20, 8, 8], [1, 30, 9, 9]]

/-- The sample with this link. -/
def relinked (link : UInt8) : Tree UInt8 Bytes :=
  { sample with
    stream :=
      { window := ⟨some 2048, fun offset wanted =>
          .ok (((relinkedImage link).drop offset).take wanted)⟩
        fork := ⟨16, .data, 2048, 1, 2048, [⟨0, 0, 1⟩], 0⟩ } }

/-- If it leads back to the first leaf, a walk along the leaves fails, and a cursor at the first
record ends with an error. -/
theorem chains_end_relinked :
    let access := (relinked 2).cached (m := Id)
    (∃ shown number, ((access.tour true everything 2).run (.empty 1)).1 =
      (shown, .error (.corruptNode "sample" number .chainTooLong))) ∧
    ∃ items number, (access.drainFirst.run.run (.empty 1)).1 =
      .ok (items ++ [.error (.corruptNode "sample" number .chainTooLong)]) := by
  intro access
  obtain ⟨walks, -, drains⟩ := chains_end (relinked 2) 1 []
  obtain ⟨leftKind, onward, rightKind, back⟩ : ((relinked 2).nodeAt 2).kind = .leaf ∧
      ((relinked 2).nodeAt 2).forwardLink = 3 ∧ ((relinked 2).nodeAt 3).kind = .leaf ∧
      ((relinked 2).nodeAt 3).forwardLink = 2 := by decide +kernel
  have left : (relinked 2).stored 2 = .ok ((relinked 2).nodeAt 2) :=
    stored_nodeAt (by rw [leftKind]; decide)
  have right : (relinked 2).stored 3 = .ok ((relinked 2).nodeAt 3) :=
    stored_nodeAt (by rw [rightKind]; decide)
  constructor
  · have circles : Circles ((relinked 2).got true) 2 := by
      refine ⟨[(relinked 2).nodeAt 2, (relinked 2).nodeAt 3], 2, .step (by decide) left ?_, ?_⟩
      · rw [onward]
        exact .step (by decide) right (back ▸ .here)
      · rw [List.map_cons, number_of_stored left]
        exact List.mem_cons_self
    obtain ⟨shown, number, -, walked⟩ := (walks true 2).circular circles
    exact ⟨shown, number, walked⟩
  · have circles : Circles (relinked 2).leafAt ((relinked 2).nodeAt 2).forwardLink := by
      rw [onward]
      refine ⟨[(relinked 2).nodeAt 3, (relinked 2).nodeAt 2], 3, .step (by decide)
        (leafAt_eq_ok.mpr ⟨right, rightKind⟩) ?_, ?_⟩
      · rw [back]
        exact .step (by decide) (leafAt_eq_ok.mpr ⟨left, leftKind⟩) (onward ▸ .here)
      · rw [List.map_cons, number_of_stored right]
        exact List.mem_cons_self
    obtain ⟨leaves, behind, number, -, drained⟩ :=
      drains.circular ⟨2, 0⟩ _ (by decide) left circles
    rw [← List.append_assoc] at drained
    exact ⟨_, number, drained⟩

end Tree

end HfsPlus
