import HfsPlus.Proofs.Tree.Format
import HfsPlus.Proofs.Tree.Trail
import Mathlib.Algebra.Ring.Nat

/-!
# Passing over the leaves of a tree

A pass goes along the chain of leaves and is content with damaged ones. The bytes of the tree settle
which leaves it is shown and what ends it, `Passes`: either the chain comes to its end, or a node
cannot be got, is no leaf, or is one more than the pass may be shown, or the steps cannot be counted
any more. Walking is folding over these leaves. Each of them has as many records as its descriptor
says, and each record either can be read or cannot.

Only where a tree claims as many nodes as its word can count, and the leaves come back to one that
was met, do the steps ever outgrow the word.
-/

namespace HfsPlus

/-- A node has as many records as it says. -/
theorem Node.count_of_parse {name : String} {number : UInt32} {bytes : Bytes} {node : Node}
    (parsed : Node.parse name number bytes = .ok node) :
    node.count = node.descriptor.numRecords.toNat := by
  obtain ⟨descriptor, kind, formed, rfl⟩ := Node.parse_eq_ok.mp parsed
  exact (formed.readout name number).count

namespace Tree

variable {Key Value : Type} (tree : Tree Key Value)

/-- The leaves that a pass is shown from a node on, with some steps taken before, and the fault that
ends it, if there is one. -/
inductive Passes : (steps current : UInt32) → List Node → (fault : Option Error) → Prop
  /-- The chain is at its end. -/
  | ended {steps : UInt32} : Passes steps 0 [] none
  | tooLong {steps current : UInt32} : current ≠ 0 → tree.header.totalNodes < steps →
    Passes steps current [] (some (tree.corrupt current .chainTooLong))
  | unreadable {steps current : UInt32} {cause : Error} : current ≠ 0 →
    steps ≤ tree.header.totalNodes → tree.parsed current = .error cause →
    Passes steps current [] (some cause)
  | notLeaf {steps current : UInt32} {node : Node} : current ≠ 0 →
    steps ≤ tree.header.totalNodes → tree.parsed current = .ok node → node.kind ≠ .leaf →
    Passes steps current [] (some (tree.corrupt node.number (.notLeaf node.kind)))
  /-- Behind the leaf there is no number for another step. -/
  | uncounted {steps current : UInt32} {node : Node} : current ≠ 0 →
    steps ≤ tree.header.totalNodes → tree.parsed current = .ok node → node.kind = .leaf →
    steps.toNat + 1 = UInt32.size → Passes steps current [node] (some .overflow)
  | leaf {steps further current : UInt32} {node : Node} {leaves : List Node}
    {fault : Option Error} : current ≠ 0 → steps ≤ tree.header.totalNodes →
    tree.parsed current = .ok node → node.kind = .leaf → further.toNat = steps.toNat + 1 →
    Passes further node.forwardLink leaves fault → Passes steps current (node :: leaves) fault

/-- The records of a leaf as they can be read, or what keeps them from it. -/
def readings (leaf : Node) : List (Except Error (Key × Value)) :=
  (List.range leaf.count).map (tree.leafRecord leaf)

/-- The records of some leaves, one leaf after the other. -/
def readingsIn (leaves : List Node) : List (Except Error (Key × Value)) :=
  leaves.flatMap tree.readings

/-- What a visitor leaves that takes a leaf in, unless it fails at it. -/
def takenIn {σ : Type} (state : σ) : Except Error σ → σ × Except Error Bool
  | .ok next => (next, .ok true)
  | .error cause => (state, .error cause)

/-- Every pass is shown some leaves and ends. The induction is on the steps that were taken. -/
theorem exists_passes (steps current : UInt32) :
    ∃ leaves fault, tree.Passes steps current leaves fault := by
  induction steps using checkedNext_induction generalizing current with
  | count steps inductionHypothesis =>
    by_cases more : current = 0
    · subst more
      exact ⟨_, _, .ended⟩
    rcases UInt32.lt_or_le tree.header.totalNodes steps with excess | within
    · exact ⟨_, _, .tooLong more excess⟩
    cases parsed : tree.parsed current with
    | error cause => exact ⟨_, _, .unreadable more within parsed⟩
    | ok node =>
      by_cases leaf : node.kind = .leaf
      · cases counted : checkedNext steps with
        | error cause =>
          exact ⟨_, _, .uncounted more within parsed leaf (checkedNext_eq_error.mp counted).2⟩
        | ok further =>
          obtain ⟨leaves, fault, passes⟩ := inductionHypothesis further counted node.forwardLink
          exact ⟨_, _, .leaf more within parsed leaf (checkedNext_eq_ok.mp counted) passes⟩
      · exact ⟨_, _, .notLeaf more within parsed leaf⟩

section Walking

variable {σ : Type} (verified : Bool) (visit : σ → Node → Id (σ × Except Error Bool)) (state : σ)

/-- Zero ends a walk. -/
theorem walkAfter_ended (steps : UInt32) :
    ((tree.direct (m := Id)).walkAfter verified visit steps 0 state).run = (state, .ok ()) := by
  rw [Access.walkAfter, if_pos rfl]
  rfl

variable {steps current : UInt32} (more : current ≠ 0)
include more

/-- A walk that may show no more nodes fails. -/
theorem walkAfter_tooLong (excess : tree.header.totalNodes < steps) :
    ((tree.direct (m := Id)).walkAfter verified visit steps current state).run =
      (state, .error (tree.corrupt current .chainTooLong)) := by
  rw [Access.walkAfter, if_neg more, direct_tree, if_pos excess]
  rfl

variable (within : steps ≤ tree.header.totalNodes)
include within

/-- A walk fails where a node cannot be got. -/
theorem walkAfter_refused {cause : Error} (refused : tree.got verified current = .error cause) :
    ((tree.direct (m := Id)).walkAfter verified visit steps current state).run =
      (state, .error cause) := by
  have got : ((tree.direct (m := Id)).node verified current).run = .error cause :=
    (tree.direct_node verified current).trans refused
  rw [Access.walkAfter, if_neg more, direct_tree, if_neg (UInt32.not_lt.mpr within), Id.run_bind, got]
  rfl

/-- Otherwise the node is shown, and the walk goes on if the visitor says so and the step can be
counted. -/
theorem walkAfter_shown {node : Node} (handed : tree.got verified current = .ok node) :
    ((tree.direct (m := Id)).walkAfter verified visit steps current state).run =
      match (visit state node).run with
      | (state, .error cause) => (state, .error cause)
      | (state, .ok false) => (state, .ok ())
      | (state, .ok true) =>
        match checkedNext steps with
        | .error cause => (state, .error cause)
        | .ok further =>
          ((tree.direct (m := Id)).walkAfter verified visit further node.forwardLink state).run := by
  have got : ((tree.direct (m := Id)).node verified current).run = .ok node :=
    (tree.direct_node verified current).trans handed
  rw [Access.walkAfter, if_neg more, direct_tree, if_neg (UInt32.not_lt.mpr within), Id.run_bind, got]
  change (visit state node >>= _).run = _
  rw [Id.run_bind]
  rcases (visit state node).run with ⟨next, cause | _ | _⟩
  · rfl
  · rfl
  · dsimp only
    split <;> simp_all

end Walking

section Passing

variable {tree} {steps current : UInt32} {leaves : List Node} {fault : Option Error}
variable (passes : tree.Passes steps current leaves fault)
include passes

/-- A walk that takes a leaf in, unless it fails at it, and gives up at any other node is a fold over
the leaves that the pass is shown. -/
theorem Passes.walkAfter {σ : Type} {visit : σ → Node → Id (σ × Except Error Bool)}
    {taken : σ → Node → Except Error σ}
    (leaf : ∀ state node, node.kind = .leaf →
      (visit state node).run = takenIn state (taken state node))
    (other : ∀ state node, node.kind ≠ .leaf →
      (visit state node).run = (state, .error (tree.corrupt node.number (.notLeaf node.kind))))
    (state : σ) :
    match leaves.foldlM taken state with
    | .ok last => ((tree.direct (m := Id)).walkAfter false visit steps current state).run =
        (last, fault.elim (.ok ()) .error)
    | .error cause => ((tree.direct (m := Id)).walkAfter false visit steps current state).run.2 =
        .error cause := by
  induction passes generalizing state with
  | ended => exact tree.walkAfter_ended false visit state _
  | tooLong more excess => exact tree.walkAfter_tooLong false visit state more excess
  | unreadable more within parsed =>
    exact tree.walkAfter_refused false visit state more within parsed
  | @notLeaf _ current node more within parsed kind =>
    change (_ : σ × Except Error Unit) = _
    rw [tree.walkAfter_shown false visit state more within parsed, other state node kind]
    rfl
  | @uncounted _ current node more within parsed kind full =>
    rw [tree.walkAfter_shown false visit state more within parsed, leaf state node kind,
      checkedNext_eq_error.mpr ⟨rfl, full⟩, List.foldlM_cons]
    cases taken state node <;> rfl
  | @leaf _ _ current node _ _ more within parsed kind counted _ inductionHypothesis =>
    rw [tree.walkAfter_shown false visit state more within parsed, leaf state node kind,
      checkedNext_eq_ok.mpr counted, List.foldlM_cons]
    cases taken state node with
    | error cause => rfl
    | ok next => exact inductionHypothesis next

/-- It is shown these leaves and no others, and ends in this one way: a walk can note them. -/
theorem Passes.unique {others : List Node} {other : Option Error}
    (also : tree.Passes steps current others other) : leaves = others ∧ fault = other := by
  let noting (shown : List Node) (node : Node) : Id (List Node × Except Error Bool) :=
    if node.kind = .leaf then (node :: shown, .ok true)
    else (shown, .error (tree.corrupt node.number (.notLeaf node.kind)))
  let noted (shown : List Node) (node : Node) : Except Error (List Node) := pure (node :: shown)
  have leaf (shown : List Node) (node : Node) (kind : node.kind = .leaf) :
      (noting shown node).run = takenIn shown (noted shown node) := if_pos kind
  have refused (shown : List Node) (node : Node) (kind : node.kind ≠ .leaf) :
      (noting shown node).run = (shown, .error (tree.corrupt node.number (.notLeaf node.kind))) :=
    if_neg kind
  have all (nodes : List Node) : nodes.foldlM noted [] = .ok nodes.reverse := by
    rw [List.foldlM_pure, List.foldl_flip_cons_eq_append, List.append_nil, List.map_id']
    rfl
  have here := passes.walkAfter leaf refused []
  have there := also.walkAfter leaf refused []
  rw [all] at here there
  have same := here.symm.trans there
  rw [Prod.mk.injEq, List.reverse_inj] at same
  obtain ⟨rfl, ended⟩ := same
  refine ⟨rfl, ?_⟩
  cases fault <;> cases other <;> simp_all

/-- Each leaf that it is shown was read, and is one. -/
theorem Passes.parsed : ∀ node ∈ leaves, node.kind = .leaf ∧
    ∃ number, tree.parsed number = .ok node := by
  induction passes with
  | ended => exact fun _ member => (List.not_mem_nil member).elim
  | tooLong => exact fun _ member => (List.not_mem_nil member).elim
  | unreadable => exact fun _ member => (List.not_mem_nil member).elim
  | notLeaf => exact fun _ member => (List.not_mem_nil member).elim
  | uncounted _ _ parsed kind =>
    rintro node (_ | ⟨_, ⟨⟩⟩)
    exact ⟨kind, _, parsed⟩
  | leaf _ _ parsed kind _ _ inductionHypothesis =>
    intro node member
    rcases List.mem_cons.mp member with rfl | behind
    · exact ⟨kind, _, parsed⟩
    · exact inductionHypothesis node behind

/-- It takes no more steps than a word counts. -/
theorem Passes.length_le : steps.toNat + leaves.length ≤ UInt32.size := by
  have below : steps.toNat < UInt32.size := steps.toNat_lt
  induction passes with
  | ended => exact Nat.le_of_lt below
  | tooLong => exact Nat.le_of_lt below
  | unreadable => exact Nat.le_of_lt below
  | notLeaf => exact Nat.le_of_lt below
  | uncounted _ _ _ _ full => exact Nat.le_of_eq full
  | @leaf _ further _ _ leaves _ _ _ _ _ counted _ inductionHypothesis =>
    have later := inductionHypothesis further.toNat_lt
    rw [List.length_cons]
    omega

/-- There are as many readings as the leaves say that they have records. -/
theorem Passes.length_readingsIn : (tree.readingsIn leaves).length =
    (leaves.map fun leaf => leaf.descriptor.numRecords.toNat).sum := by
  have counted : leaves.map (fun leaf => (tree.readings leaf).length) =
      leaves.map fun leaf => leaf.descriptor.numRecords.toNat := by
    refine List.map_congr_left fun leaf member => ?_
    obtain ⟨-, number, parsed⟩ := passes.parsed leaf member
    obtain ⟨_, _, parsed⟩ := bind_eq_ok.mp parsed
    obtain ⟨bytes, _, parsed⟩ := bind_eq_ok.mp parsed
    rw [readings, List.length_map, List.length_range, Node.count_of_parse parsed]
  rw [readingsIn, List.length_flatMap, counted]

end Passing

section Ways

variable {tree}

variable (tree) in
/-- The leaf of a number as a pass is shown it, damaged or not. A node of another kind is refused. -/
def shownLeaf (number : UInt32) : Except Error Node := do
  let node ← tree.parsed number
  if node.kind = .leaf then return node
  else throw (tree.corrupt number (.notLeaf node.kind))

/-- It is what the bytes spell, if that is a leaf. -/
theorem shownLeaf_eq_ok {number : UInt32} {leaf : Node} :
    tree.shownLeaf number = .ok leaf ↔ tree.parsed number = .ok leaf ∧ leaf.kind = .leaf := by
  rw [shownLeaf, bind_eq_ok]
  constructor
  · rintro ⟨node, parsed, taken⟩
    split at taken
    next kind =>
      obtain ⟨⟩ := taken
      exact ⟨parsed, kind⟩
    next => cases taken
  · rintro ⟨parsed, kind⟩
    exact ⟨leaf, parsed, if_pos kind⟩

variable (tree) in
/-- A leaf says the number under which it is shown. -/
theorem numbered_shownLeaf : tree.Numbered tree.shownLeaf where
  number taken := number_of_parsed (shownLeaf_eq_ok.mp taken).1
  inside taken := inside_of_parsed (shownLeaf_eq_ok.mp taken).1

variable {steps current : UInt32} {leaves : List Node} {fault : Option Error}

/-- Where every step has a number that may be taken, a pass along leaves that come back goes on until
there are no more numbers. -/
theorem Passes.overflow_of_circles (passes : tree.Passes steps current leaves fault)
    (all : tree.header.totalNodes.toNat + 1 = UInt32.size) (circles : Circles tree.shownLeaf current) :
    fault = some .overflow := by
  induction passes with
  | ended => exact absurd rfl (circles.next tree.numbered_shownLeaf).1
  | @tooLong steps _ _ excess =>
    have below : steps.toNat < UInt32.size := steps.toNat_lt
    have more := UInt32.lt_iff_toNat_lt.mp excess
    omega
  | unreadable _ _ refused =>
    obtain ⟨-, node, shown, -⟩ := circles.next tree.numbered_shownLeaf
    cases refused.symm.trans (shownLeaf_eq_ok.mp shown).1
  | notLeaf _ _ parsed kind =>
    obtain ⟨-, node, shown, -⟩ := circles.next tree.numbered_shownLeaf
    obtain ⟨same, leaf⟩ := shownLeaf_eq_ok.mp shown
    obtain ⟨⟩ := parsed.symm.trans same
    exact absurd leaf kind
  | uncounted => rfl
  | leaf _ _ parsed kind _ _ inductionHypothesis =>
    obtain ⟨-, node, shown, further⟩ := circles.next tree.numbered_shownLeaf
    obtain ⟨⟩ := parsed.symm.trans (shownLeaf_eq_ok.mp shown).1
    exact inductionHypothesis further

/-- A pass that has no number for another step was shown leaves along a trail that used up all
numbers, unless reading a node overflowed. -/
theorem Passes.trail_of_overflow (passes : tree.Passes steps current leaves fault)
    (excess : fault = some .overflow) (readable : ∀ number, tree.parsed number ≠ .error .overflow) :
    (∃ behind, Trail tree.shownLeaf current leaves behind) ∧
      steps.toNat + leaves.length = UInt32.size ∧
      UInt32.size ≤ tree.header.totalNodes.toNat + 1 := by
  induction passes with
  | ended => cases excess
  | tooLong => cases excess
  | unreadable _ _ refused =>
    obtain ⟨⟩ := excess
    exact absurd refused (readable _)
  | notLeaf => cases excess
  | uncounted more within parsed kind full =>
    have room := UInt32.le_iff_toNat_le.mp within
    exact ⟨⟨_, .step more (shownLeaf_eq_ok.mpr ⟨parsed, kind⟩) .here⟩, full, by omega⟩
  | leaf more _ parsed kind counted _ inductionHypothesis =>
    obtain ⟨⟨behind, trail⟩, long, wide⟩ := inductionHypothesis excess
    refine ⟨⟨behind, .step more (shownLeaf_eq_ok.mpr ⟨parsed, kind⟩) trail⟩, ?_, wide⟩
    rw [List.length_cons]
    omega

/-- A pass from the first step on runs out of numbers for its steps exactly where the leaves come back
in a tree that claims as many nodes as there are numbers. -/
theorem Passes.overflow_iff (passes : tree.Passes 0 current leaves fault)
    (readable : ∀ number, tree.parsed number ≠ .error .overflow) :
    fault = some .overflow ↔
      tree.header.totalNodes.toNat + 1 = UInt32.size ∧ Circles tree.shownLeaf current := by
  constructor
  · intro excess
    obtain ⟨⟨behind, trail⟩, long, wide⟩ := passes.trail_of_overflow excess readable
    have below : tree.header.totalNodes.toNat < UInt32.size := tree.header.totalNodes.toNat_lt
    rw [UInt32.toNat_zero] at long
    refine ⟨by omega, by_contra fun straight => ?_⟩
    have short := trail.length_le tree.numbered_shownLeaf straight
    omega
  · rintro ⟨all, circles⟩
    exact passes.overflow_of_circles all circles

end Ways

end Tree

end HfsPlus
