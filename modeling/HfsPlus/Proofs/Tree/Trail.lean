import HfsPlus.Proofs.Tree.WellFormed
import Mathlib.Data.List.Nodup
import Mathlib.Data.List.Perm.Subperm

/-!
# Trails of forward links

Forward links are numbers from the disk, and nothing keeps them from leading back. A `Trail` is a
part of the way along them: the nodes that are got one after the other, and the number that the last
of them names. From every start there are two ways that this can go. Either it ends, `Ends`, at zero
or at a number under which no node can be got, and then no node was met twice; or it comes back to a
node that was met before, `Circles`, and then goes on for ever.

How nodes are got, and which are refused, is left open. All that is used is that a node says the
number under which it was got and that a tree has no nodes beyond its count of them, `Numbered`. A
trail that is longer than this count therefore comes back, and a chain of leaves is no longer.
-/

namespace HfsPlus

namespace Tree

section Trails

variable (get : UInt32 → Except Error Node)

/-- From a number, following forward links leads along some nodes to another number. -/
inductive Trail : UInt32 → List Node → UInt32 → Prop
  | here {start : UInt32} : Trail start [] start
  | step {start : UInt32} {node : Node} {nodes : List Node} {behind : UInt32} : start ≠ 0 →
    get start = .ok node → Trail node.forwardLink nodes behind → Trail start (node :: nodes) behind

/-- The way from a number ends behind some nodes, where zero ends the chain or where no node can be
got. -/
inductive Ends (start : UInt32) : List Node → Except Error Unit → Prop
  | chain {nodes : List Node} : Trail get start nodes 0 → Ends start nodes (.ok ())
  | refused {nodes : List Node} {behind : UInt32} {cause : Error} : Trail get start nodes behind →
    behind ≠ 0 → get behind = .error cause → Ends start nodes (.error cause)

/-- The way from a number comes back to a node that was met on it. -/
def Circles (start : UInt32) : Prop :=
  ∃ nodes behind, Trail get start nodes behind ∧ behind ∈ nodes.map Node.number

end Trails

/-- Each node that is got says the number under which it was, and lies within the tree. -/
structure Numbered {Key Value : Type} (tree : Tree Key Value) (get : UInt32 → Except Error Node) :
    Prop where
  number : ∀ {number node}, get number = .ok node → node.number = number
  inside : ∀ {number node}, get number = .ok node → number < tree.header.totalNodes

section Ways

variable {get : UInt32 → Except Error Node} {start middle behind : UInt32} {nodes : List Node}

/-- One trail goes on where another leads to. -/
theorem Trail.append {later : List Node} (first : Trail get start nodes middle)
    (second : Trail get middle later behind) : Trail get start (nodes ++ later) behind := by
  induction first with
  | here => exact second
  | step more got _ inductionHypothesis => exact .step more got (inductionHypothesis second)

/-- A trail leads through each of its nodes. -/
theorem Trail.split {before later : List Node} (trail : Trail get start (before ++ later) behind) :
    ∃ middle, Trail get start before middle ∧ Trail get middle later behind := by
  induction before generalizing start with
  | nil => exact ⟨start, .here, trail⟩
  | cons node before inductionHypothesis =>
    cases trail with
    | step more got rest =>
      obtain ⟨middle, first, second⟩ := inductionHypothesis rest
      exact ⟨middle, .step more got first, second⟩

/-- Each node of a trail was got. -/
theorem Trail.taken (trail : Trail get start nodes behind) :
    ∀ node ∈ nodes, ∃ number, get number = .ok node := by
  induction trail with
  | here => exact fun _ member => (List.not_mem_nil member).elim
  | step _ got _ inductionHypothesis =>
    intro node member
    rcases List.mem_cons.mp member with rfl | later
    · exact ⟨_, got⟩
    · exact inductionHypothesis node later

/-- The last node of a trail links to where the trail leads. -/
theorem Trail.forwardLink_last (trail : Trail get start nodes behind) (node : Node)
    (linked : node.forwardLink = start) : (nodes.getLastD node).forwardLink = behind := by
  induction trail generalizing node with
  | here => exact linked
  | @step _ next nodes _ _ _ _ inductionHypothesis =>
    rw [List.getLastD_cons]
    exact inductionHypothesis next rfl

/-- Up to where it ends, a way is a trail. -/
theorem Ends.trail {outcome : Except Error Unit} (ends : Ends get start nodes outcome) :
    ∃ behind, Trail get start nodes behind := by
  cases ends with
  | chain trail => exact ⟨0, trail⟩
  | refused trail => exact ⟨_, trail⟩

/-- A way that comes back further on comes back. -/
theorem Circles.of_next {node : Node} (more : start ≠ 0) (got : get start = .ok node)
    (circles : Circles get node.forwardLink) : Circles get start := by
  obtain ⟨nodes, behind, trail, again⟩ := circles
  exact ⟨node :: nodes, behind, .step more got trail, List.mem_cons_of_mem _ again⟩

/-- As long as the way does not end, there is a trail of any length on it. -/
theorem Trail.longer_or_ends (length : Nat) (start : UInt32) :
    (∃ nodes outcome, Ends get start nodes outcome) ∨
      ∃ nodes behind, Trail get start nodes behind ∧ nodes.length = length := by
  induction length generalizing start with
  | zero => exact .inr ⟨[], start, .here, rfl⟩
  | succ length inductionHypothesis =>
    by_cases more : start = 0
    · subst more
      exact .inl ⟨[], _, .chain .here⟩
    cases got : get start with
    | error cause => exact .inl ⟨[], _, .refused .here more got⟩
    | ok node =>
      rcases inductionHypothesis node.forwardLink with
        ⟨nodes, _, ⟨trail⟩ | ⟨trail, further, refused⟩⟩ | ⟨nodes, behind, trail, long⟩
      · exact .inl ⟨_, _, .chain (.step more got trail)⟩
      · exact .inl ⟨_, _, .refused (.step more got trail) further refused⟩
      · exact .inr ⟨node :: nodes, behind, .step more got trail, congrArg Nat.succ long⟩

end Ways

section Numbered

variable {Key Value : Type} {tree : Tree Key Value} {get : UInt32 → Except Error Node}
variable (numbered : tree.Numbered get) {start behind : UInt32} {node : Node} {nodes : List Node}
include numbered

/-- The first node of a trail is the one at its start. -/
theorem Trail.number_head (trail : Trail get start (node :: nodes) behind) :
    node.number = start := by
  cases trail with
  | step _ got _ => exact numbered.number got

/-- Where the way comes back, there is a node, and from it the way comes back as well: what was met
first is met again behind all others. -/
theorem Circles.next (circles : Circles get start) :
    start ≠ 0 ∧ ∃ node, get start = .ok node ∧ Circles get node.forwardLink := by
  obtain ⟨nodes, behind, trail, again⟩ := circles
  cases trail with
  | here => cases again
  | @step _ node later _ more got rest =>
    refine ⟨more, node, got, ?_⟩
    rcases List.mem_cons.mp again with back | met
    · rw [numbered.number got] at back
      subst back
      have once : Trail get node.forwardLink (later ++ [node]) node.forwardLink :=
        rest.append (.step more got .here)
      refine ⟨_, _, once, ?_⟩
      cases later with
      | nil =>
        cases rest with
        | here => simp [numbered.number got]
      | cons first later => simp [rest.number_head numbered]
    · exact ⟨later, behind, rest, met⟩

/-- All along a way that comes back it does so. -/
theorem Circles.onward (circles : Circles get start) (trail : Trail get start nodes behind) :
    Circles get behind := by
  induction trail with
  | here => exact circles
  | step _ got _ inductionHypothesis =>
    obtain ⟨-, other, same, further⟩ := circles.next numbered
    obtain ⟨⟩ := got.symm.trans same
    exact inductionHypothesis further

/-- A way that comes back can be followed for as many nodes as one likes. -/
theorem Circles.long (circles : Circles get start) (length : Nat) :
    ∃ nodes behind, Trail get start nodes behind ∧ nodes.length = length ∧ behind ≠ 0 := by
  induction length generalizing start with
  | zero => exact ⟨[], start, .here, rfl, (circles.next numbered).1⟩
  | succ length inductionHypothesis =>
    obtain ⟨more, node, got, further⟩ := circles.next numbered
    obtain ⟨nodes, behind, trail, long, open_⟩ := inductionHypothesis further
    exact ⟨node :: nodes, behind, .step more got trail, congrArg Nat.succ long, open_⟩

/-- A way that ends does not come back. -/
theorem Ends.not_circles {outcome : Except Error Unit} (ends : Ends get start nodes outcome) :
    ¬ Circles get start := by
  intro circles
  cases ends with
  | chain trail => exact ((circles.onward numbered trail).next numbered).1 rfl
  | refused trail _ refused =>
    obtain ⟨-, node, got, -⟩ := (circles.onward numbered trail).next numbered
    rw [refused] at got
    cases got

/-- Where no way comes back, no node is met twice: the trail from a node up to where it is met again
would be a circle. -/
theorem Trail.nodup (trail : Trail get start nodes behind) (straight : ¬ Circles get start) :
    (nodes.map Node.number).Nodup := by
  induction trail with
  | here => exact List.nodup_nil
  | @step _ node later behind more got rest inductionHypothesis =>
    refine List.nodup_cons.mpr ⟨fun again => straight ?_, inductionHypothesis fun circles =>
      straight (.of_next more got circles)⟩
    obtain ⟨other, member, sameNumber⟩ := List.mem_map.mp again
    obtain ⟨before, after, rfl⟩ := List.append_of_mem member
    obtain ⟨middle, first, second⟩ := rest.split
    have back : middle = node.number := by rw [← second.number_head numbered, sameNumber]
    subst back
    exact ⟨node :: before, _, .step more got first, List.mem_cons_self⟩

/-- The nodes of a trail lie within the tree, and none of them is the first. -/
theorem Trail.number_bounds (trail : Trail get start nodes behind) :
    ∀ node ∈ nodes, 0 < node.number.toNat ∧ node.number.toNat < tree.header.totalNodes.toNat := by
  induction trail with
  | here => exact fun _ member => (List.not_mem_nil member).elim
  | step more got _ inductionHypothesis =>
    intro other member
    rcases List.mem_cons.mp member with rfl | later
    · rw [numbered.number got]
      refine ⟨?_, UInt32.lt_iff_toNat_lt.mp (numbered.inside got)⟩
      rw [Nat.pos_iff_ne_zero]
      exact fun zero => more (UInt32.toNat_inj.mp zero)
    · exact inductionHypothesis other later

/-- A trail on which no node is met twice has fewer nodes than the tree. -/
theorem Trail.length_le (trail : Trail get start nodes behind) (straight : ¬ Circles get start) :
    nodes.length ≤ tree.header.totalNodes.toNat - 1 := by
  have distinct : (nodes.map fun node => node.number.toNat).Nodup := by
    have mapped := List.Nodup.map (fun _ _ same => UInt32.toNat_inj.mp same)
      (trail.nodup numbered straight)
    rwa [List.map_map] at mapped
  have within : nodes.map (fun node => node.number.toNat) ⊆
      List.range' 1 (tree.header.totalNodes.toNat - 1) := by
    intro number member
    obtain ⟨node, inside, rfl⟩ := List.mem_map.mp member
    have bounds := trail.number_bounds numbered node inside
    rw [List.mem_range'_1]
    omega
  simpa using (List.Nodup.subperm distinct within).length_le

/-- No node is met twice on a way that ends, and there are fewer of them than the tree has. -/
theorem Ends.distinct {outcome : Except Error Unit} (ends : Ends get start nodes outcome) :
    (nodes.map Node.number).Nodup ∧ nodes.length ≤ tree.header.totalNodes.toNat - 1 := by
  obtain ⟨behind, trail⟩ := ends.trail
  have straight := ends.not_circles numbered
  exact ⟨trail.nodup numbered straight, trail.length_le numbered straight⟩

/-- Every way ends or comes back. -/
theorem ends_or_circles (start : UInt32) :
    (∃ nodes outcome, Ends get start nodes outcome) ∨ Circles get start := by
  rcases Trail.longer_or_ends (tree.header.totalNodes.toNat + 1) start with
    ends | ⟨nodes, behind, trail, long⟩
  · exact .inl ends
  · refine .inr (by_contra fun straight => ?_)
    have short := trail.length_le numbered straight
    omega

end Numbered

section Getting

variable {Key Value : Type} (tree : Tree Key Value)

/-- The node of a number as it is handed out: with all its records read, or not. -/
def got (verified : Bool) (number : UInt32) : Except Error Node :=
  if verified then tree.stored number else tree.parsed number

/-- The leaf of a number. A node of another kind is refused. -/
def leafAt (number : UInt32) : Except Error Node := do
  let node ← tree.stored number
  if node.kind = .leaf then return node
  else throw (tree.corrupt number (.notLeaf node.kind))

variable {tree}

/-- A leaf is a stored node of this kind. -/
theorem leafAt_eq_ok {number : UInt32} {leaf : Node} :
    tree.leafAt number = .ok leaf ↔ tree.stored number = .ok leaf ∧ leaf.kind = .leaf := by
  rw [leafAt, bind_eq_ok]
  constructor
  · rintro ⟨node, stored, taken⟩
    split at taken
    next kind =>
      obtain ⟨⟩ := taken
      exact ⟨stored, kind⟩
    next => cases taken
  · rintro ⟨stored, kind⟩
    exact ⟨leaf, stored, if_pos kind⟩

/-- A stored node of another kind is refused for its kind. -/
theorem leafAt_of_other {number : UInt32} {node : Node} (stored : tree.stored number = .ok node)
    (other : node.kind ≠ .leaf) :
    tree.leafAt number = .error (tree.corrupt number (.notLeaf node.kind)) := by
  rw [leafAt, stored]
  exact if_neg other

variable (tree) in
/-- A node that is fetched has the number it is fetched by, which the tree has. -/
theorem numbered_got (verified : Bool) : tree.Numbered (tree.got verified) := by
  cases verified with
  | false => exact ⟨number_of_parsed, inside_of_parsed⟩
  | true => exact ⟨number_of_stored, inside_of_stored⟩

variable (tree) in
/-- So does a leaf. -/
theorem numbered_leafAt : tree.Numbered tree.leafAt where
  number taken := number_of_stored (leafAt_eq_ok.mp taken).1
  inside taken := inside_of_stored (leafAt_eq_ok.mp taken).1

/-- A chain of leaves is a trail that leads to zero. -/
theorem Linked.trail {start : UInt32} {leaves : List Node} (linked : Linked start leaves)
    (sound : tree.Leaves leaves) : Trail tree.leafAt start leaves 0 := by
  induction leaves generalizing start with
  | nil =>
    obtain rfl : start = 0 := linked
    exact .here
  | cons leaf behind inductionHypothesis =>
    obtain ⟨more, number, rest⟩ := linked
    have taken : tree.leafAt start = .ok leaf :=
      leafAt_eq_ok.mpr (number ▸ sound leaf List.mem_cons_self)
    exact .step more taken
      (inductionHypothesis rest fun other member => sound other (List.mem_cons_of_mem _ member))

/-- It has no more leaves than the tree has nodes. -/
theorem Linked.length_le {start : UInt32} {leaves : List Node} (linked : Linked start leaves)
    (sound : tree.Leaves leaves) : leaves.length ≤ tree.header.totalNodes.toNat :=
  Nat.le_trans ((Ends.chain (linked.trail sound)).distinct tree.numbered_leafAt).2
    (Nat.sub_le _ _)

end Getting

end Tree

end HfsPlus
