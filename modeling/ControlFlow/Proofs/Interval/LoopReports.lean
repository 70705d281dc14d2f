import ControlFlow.Proofs.Interval.Recording

/-! The loops that are reported. Each has a latch of its own and is closed by an edge from it back to
a dominator. They are reported from the inside out, and what is noted at a node is what they leave
there when they are written down in this order. In a reducible graph a loop that is the only one of
its head is reported unless its latch is a member of a reported loop inside it; left out is besides
only what lies in a graph that does not get smaller when its intervals are made nodes. -/
namespace ControlFlow.FlowGraph

variable {g h : FlowGraph} {entry head latch : NodeId} {loops : List (NodeId × NodeId)}
variable {levels : List Level}

/-- What is known of the loops that are reported. -/
structure Reported (g : FlowGraph) (entry : NodeId) (loops : List (NodeId × NodeId)) : Prop where
  closes : ∀ loop ∈ loops, g.ClosesLoop entry loop.1 loop.2
  latches : (loops.map Prod.snd).Nodup
  /-- No latch is a member of a loop reported before. -/
  apart : loops.Pairwise fun earlier later => ¬g.LoopMember entry earlier.1 earlier.2 later.2
  /-- Inner loops come first. -/
  insideOut : loops.Pairwise g.InsideOut
  /-- The only loop of a head is reported unless its latch is in a reported loop inside it. -/
  mem_iff : g.Reducible entry → ∀ head latch, g.ClosesLoop entry head latch →
    (∀ m, g.ClosesLoop entry head m → m = latch) →
      (head = latch ∨ g.size = 1 ∨ g.Contracts entry) →
        ((head, latch) ∈ loops ↔ ¬∃ loop ∈ loops, g.StrictlyDominates entry head loop.1 ∧
          g.LoopMember entry loop.1 loop.2 latch)

/-! ## Graphs that differ in annotations -/

namespace SameCore

variable (same : g.SameCore h)
include same

private theorem closesLoop_of {start : NodeId} (closes : g.ClosesLoop start head latch) :
    h.ClosesLoop start head latch :=
  ⟨same.step ▸ closes.edge, same.dominates ▸ closes.dominates⟩

theorem closesLoop : g.ClosesLoop = h.ClosesLoop := by
  funext start head latch
  exact propext ⟨same.closesLoop_of, same.symm.closesLoop_of⟩

theorem closesLoop_iff (wf : h.WellFormed) {start : NodeId} (live : start ∈ h.nodeIds) :
    g.ClosesLoop start head latch ↔
      head ∈ h.succs latch ∧ (h.dominatorsFrom start).dominates head latch = true := by
  rw [same.closesLoop, FlowGraph.closesLoop_iff wf live]

theorem inLoop : g.InLoop = h.InLoop := by
  funext head latch n
  rw [InLoop, InLoop, same.walk]

theorem insideOut : g.InsideOut = h.InsideOut := by
  funext earlier later
  rw [InsideOut, InsideOut, same.inLoop]

private theorem loopMember_of {start n : NodeId} (member : g.LoopMember start head latch n) :
    h.LoopMember start head latch n where
  inside := same.inLoop ▸ member.inside
  dominated := same.dominates ▸ member.dominated
  after := same.numbering ▸ member.after
  before := same.numbering ▸ member.before

theorem loopMember : g.LoopMember = h.LoopMember := by
  funext start head latch n
  exact propext ⟨same.loopMember_of, same.symm.loopMember_of⟩

theorem reducible_of {start : NodeId} (reducible : g.Reducible start) : h.Reducible start := by
  intro a b retreats
  rw [← same.dominates]
  exact reducible a b ⟨same.symm.reaches retreats.reached, same.step ▸ retreats.edge,
    same.numbering ▸ retreats.back⟩

theorem size_eq : g.size = h.size := by
  have lengths : g.nodeIds.length = h.nodeIds.length := congrArg List.length same.nodeIds
  simpa [FlowGraph.nodeIds, size] using lengths

theorem contracts : g.Contracts = h.Contracts := by
  funext start
  rw [Contracts, Contracts, same.nodeIds, same.preds]

theorem reported (reported : Reported g entry loops) : Reported h entry loops where
  closes := same.closesLoop ▸ reported.closes
  latches := reported.latches
  apart := same.loopMember ▸ reported.apart
  insideOut := same.insideOut ▸ reported.insideOut
  mem_iff reducible head latch closes single shrinks := by
    rw [← same.closesLoop] at closes single
    rw [← same.size_eq, ← same.contracts] at shrinks
    simp only [StrictlyDominates, ← same.dominates, ← same.loopMember]
    exact reported.mem_iff (same.symm.reducible_of reducible) head latch closes single shrinks

end SameCore

/-! ## The loops of one graph -/

/-- Of two elements of a list one comes first. -/
private theorem sublist_or_sublist {items : List (NodeId × NodeId)} {a b : NodeId × NodeId}
    (left : a ∈ items) (right : b ∈ items) (different : a ≠ b) :
    [a, b].Sublist items ∨ [b, a].Sublist items := by
  induction items with
  | nil => cases left
  | cons first rest ih =>
    rcases List.mem_cons.mp left with rfl | leftLater
    · have rightLater := (List.mem_cons.mp right).resolve_left (Ne.symm different)
      exact .inl ((List.singleton_sublist.mpr rightLater).cons_cons a)
    · rcases List.mem_cons.mp right with rfl | rightLater
      · exact .inr ((List.singleton_sublist.mpr leftLater).cons_cons b)
      · exact (ih leftLater rightLater).imp (.cons first) (.cons first)

section

variable (wf : g.WellFormed) (live : entry ∈ g.nodeIds)
  (all : ∀ n ∈ g.nodeIds, g.Reaches entry n) (derivation : Derivation g entry levels)
include wf live all derivation

/-- The closing edge of a head that has one only is found. -/
theorem mem_closingsOf (reducible : g.Reducible entry) (closes : g.ClosesLoop entry head latch)
    (single : ∀ m, g.ClosesLoop entry head m → m = latch)
    (shrinks : head = latch ∨ g.size = 1 ∨ g.Contracts entry) :
    (head, latch) ∈ g.closingsOf [] levels := by
  rcases shrinks with rfl | shrinks
  · exact derivation.mem_closings_self wf live all closes single
  · have limit := (derivation.limitSize_eq_one_iff wf live all).mpr ⟨reducible, shrinks⟩
    exact derivation.mem_closings wf (.refl wf live all) limit closes single closes.edge rfl

theorem reported_of_keeps
    (keeps : Keeps g (g.dominatorsFrom entry) (g.numbering entry) (g.closingsOf [] levels) loops) :
    Reported g entry loops := by
  have traceable := Traceable.refl wf live all
  have closes (loop : NodeId × NodeId) (found : loop ∈ loops) : g.ClosesLoop entry loop.1 loop.2 :=
    (derivation.closes wf traceable loop (keeps.sublist.subset found)).1
  have ordered := derivation.insideOut wf traceable
  have apart : loops.Pairwise fun earlier later =>
      ¬g.LoopMember entry earlier.1 earlier.2 later.2 := by
    refine keeps.apart.imp_of_mem fun {earlier later} found _ apart => ?_
    rwa [mem_loopMembers wf live (closes earlier found)] at apart
  refine ⟨closes, ?_, apart, ordered.sublist keeps.sublist,
    fun reducible head latch back single shrinks => ?_⟩
  · refine List.pairwise_map.mpr (apart.imp_of_mem fun {earlier later} found _ apart => ?_)
    intro same
    rw [← same] at apart
    exact apart ((closes earlier found).latch_member wf live)
  · have ranking := ranking wf live
    constructor
    · rintro found ⟨inner, found', strict, member⟩
      have different : (head, latch) ≠ inner := fun same => strict.1 (congrArg Prod.fst same)
      -- The outer loop does not come first, since it holds the head of the inner one; nor the
      -- inner one, since it marks the latch of the outer one.
      rcases sublist_or_sublist found found' different with first | first
      · have inOrder : g.InsideOut (head, latch) inner := by
          simpa using ordered.sublist (first.trans keeps.sublist)
        have within := InLoop.of_latch.of_dominates ranking strict member.dominated
        exact (inOrder.resolve_left (Ne.symm strict.1)) within
      · have outside : ¬g.LoopMember entry inner.1 inner.2 latch := by
          simpa using apart.sublist first
        exact outside member
    · intro free
      by_contra missing
      have closing := mem_closingsOf wf live all derivation reducible back single shrinks
      obtain ⟨other, found, inside, earlier⟩ :=
        (keeps.covered (head, latch) closing).resolve_left missing
      have member := (mem_loopMembers wf live (closes other found)).mp inside
      have inOrder : g.InsideOut other (head, latch) := by simpa using ordered.sublist earlier
      by_cases same : other.1 = head
      · have again := single other.2 (same ▸ closes other found)
        exact missing (by rwa [← same, ← again])
      · rcases ranking.dominates_or_dominates back.dominates member.dominated with above | above
        · exact free ⟨other, found, ⟨Ne.symm same, above⟩, member⟩
        · have within := member.inside.of_dominates ranking ⟨same, above⟩ back.dominates
          exact (inOrder.resolve_left (Ne.symm same)) within

end

/-! ## Whole runs -/

/-- The search for loops reports its loops in the order in which they are found, and notes what they
leave when they are written down in this order. -/
theorem structureLoops_reported (wf : g.WellFormed) (entered : g.entry? = some entry)
    (all : ∀ n ∈ g.nodeIds, g.Reaches entry n) (unlooped : g.Unlooped) :
    ∃ found loops, g.structureLoops = .ok found ∧ found.2.SameCore g ∧
      found.1 = loops.map (g.loopRegion (g.dominatorsFrom entry) (g.numbering entry)) ∧
      (∀ id ∈ g.nodeIds, found.2.loopNotes? id =
        some (g.loopNotesOf (g.dominatorsFrom entry) (g.numbering entry) loops id)) ∧
      Reported g entry loops := by
  have same := @sameCore_recordNumbers g (g.numbering entry)
  have unloopedNumbered := unlooped.of_eq (loopNotes?_recordNumbers (g.numbering entry))
  generalize numbered : g.recordNumbers (g.numbering entry) = k at same unloopedNumbered
  have wfK := wf.of_sameCore same
  have enteredK : k.entry? = some entry := same.entry_eq.trans entered
  have allK (n : NodeId) (inside : n ∈ k.nodeIds) : k.Reaches entry n :=
    same.symm.reaches (all n (same.nodeIds ▸ inside))
  obtain ⟨levels, derived, derivation⟩ := derivedSequence_eq_ok wfK enteredK
  have ran := structureLoops_eq entered (numbered ▸ derived)
  rw [numbered, ← same.dominatorsFrom, ← same.numbering] at ran
  have start : Recorded k (k.dominatorsFrom entry) (k.numbering entry) [] ([], k) :=
    ⟨rfl, .refl k, fun id live => unloopedNumbered.loopNotes?_eq live⟩
  have recorded := start.foldl_recordLoop (Level.tracedClosings [] levels)
  have keeps := foldl_keepLoop k (k.dominatorsFrom entry) (k.numbering entry)
    (k.closingsOf [] levels)
  have reported := reported_of_keeps wfK (entry_live enteredK) allK derivation keeps
  rw [← same.loopRegion, ← same.loopNotesOf, ← same.dominatorsFrom, ← same.numbering,
    ← same.nodeIds]
  exact ⟨_, _, ran, recorded.core.trans same, recorded.regions, recorded.notes,
    same.reported reported⟩

end ControlFlow.FlowGraph
