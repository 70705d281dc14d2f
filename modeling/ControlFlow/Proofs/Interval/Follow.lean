import ControlFlow.Interval.Follow
import ControlFlow.Proofs.Graph.CommonDominators
import ControlFlow.Proofs.Interval.Loops

/-! Who gets which follow. A conditional with a join of its own gets that. All others wait, and the
next header that has one gives its own follow to them, whether it encloses them or not. -/
namespace ControlFlow

/-- The test and the exit of a conditional. -/
def Region.choice? : Region → Option (String × String)
  | switch cond follow _ => some (cond, follow)
  | ifThen cond _ exit | ifElse cond _ _ exit => some (cond, exit)
  | _ => none

/-- The test of a two-way conditional. -/
def Region.test? : Region → Option String
  | ifThen cond .. | ifElse cond .. => some cond
  | _ => none

theorem Region.test?_eq_none {region : Region} (other : region.choice? = none) :
    region.test? = none := by
  cases region with
  | ifThen => cases other
  | ifElse => cases other
  | _ => rfl

/-- All that is known of a node but its follow. -/
def Notes.withoutFollow (notes : Notes) : Notes := { notes with follow := none }

namespace FlowGraph

variable {g h : FlowGraph} {entry id n f : NodeId}

/-! ## Own follows -/

/-- A node where ways meet, directly below another one. -/
def Joins (g : FlowGraph) (entry above n : NodeId) : Prop :=
  g.ImmediatelyDominates entry above n ∧ 2 ≤ g.inDegree n

/-- Control can go on from a node to another one, which stands behind it. -/
structure ComesAfter (g : FlowGraph) (entry id f : NodeId) : Prop where
  different : f ≠ id
  reached : g.Reaches id f
  later : (g.numbering entry).rank id < (g.numbering entry).rank f

section

variable (wf : g.WellFormed) (live : entry ∈ g.nodeIds)
include wf live

theorem comesAfter_of_strictlyDominates (strict : g.StrictlyDominates entry id f) :
    g.ComesAfter entry id f where
  different := strict.1.symm
  reached := strict.2.reaches
  later := (ranking wf live).lt_of_strictlyDominates strict

theorem mem_joins_iff {above : NodeId} :
    n ∈ g.joins (g.dominatorsFrom entry) above ↔ g.Joins entry above n := by
  have exact := exact_dominatorsFrom wf live
  have immediate := exact.immediate?_eq_some_iff above n
  simp only [joins, exact.children_eq, List.mem_filter, beq_iff_eq, decide_eq_true_eq, immediate]
  constructor
  · rintro ⟨⟨-, directly⟩, ways⟩
    exact ⟨directly, ways⟩
  · rintro ⟨directly, ways⟩
    exact ⟨⟨directly.1.2.1.live wf live, directly⟩, ways⟩

/-- The follow of a two-way conditional is its last join. -/
theorem testFollow?_spec
    (found : g.testFollow? (g.dominatorsFrom entry) (g.numbering entry) id = some f) :
    g.Joins entry id f ∧
      ∀ n, g.Joins entry id n → (g.numbering entry).rank n ≤ (g.numbering entry).rank f := by
  obtain ⟨member, last⟩ := greatest?_spec found
  refine ⟨(mem_joins_iff wf live).mp member, ?_⟩
  intro n joins
  exact last n ((mem_joins_iff wf live).mpr joins)

/-- The arms of a switch meet below the switch itself or below a node that dominates it: the latter
only if the switch has an arm that is not directly below it. -/
theorem switchRoot?_spec {root : NodeId} (switch : g.isSwitch id = true)
    (reached : g.Reaches entry id)
    (found : g.switchRoot? (g.dominatorsFrom entry) id = some root) :
    g.Dominates entry root id ∧
      ((∀ arm ∈ g.succs id, g.ImmediatelyDominates entry id arm) → root = id) := by
  have exact := exact_dominatorsFrom wf live
  simp only [switchRoot?] at found
  constructor
  · split at found
    · obtain rfl := Option.some.inj found
      exact .refl reached
    · -- The switch has more than one arm, so it comes before one other than the root.
      have other : ∃ arm ∈ g.succs id, arm ≠ root := by
        by_contra none
        push Not at none
        have single : g.succs id ⊆ [root] := fun arm member =>
          List.mem_singleton.mpr (none arm member)
        have few := (List.subperm_of_subset (wf.succs_nodup id) single).length_le
        simp only [isSwitch, decide_eq_true_eq] at switch
        rw [List.length_singleton] at few
        omega
      obtain ⟨arm, edge, different⟩ := other
      have above : g.Dominates entry root arm := dominatesAll_of_common? wf found arm edge
      exact above.of_step different.symm reached edge
  · intro direct
    have all : (g.succs id).all
        (fun arm => (g.dominatorsFrom entry).immediate? arm == some id) = true := by
      simp only [List.all_eq_true, beq_iff_eq]
      exact fun arm edge => (exact.immediate?_eq_some_iff id arm).mpr (direct arm edge)
    rw [if_pos all] at found
    exact (Option.some.inj found).symm

/-- The follow of a switch is a join directly below the node where its arms meet. -/
theorem switchFollow?_spec (switch : g.isSwitch id = true) (reached : g.Reaches entry id)
    (found : g.switchFollow? (g.dominatorsFrom entry) (g.numbering entry) id = some f) :
    ∃ root, g.Dominates entry root id ∧ g.Joins entry root f ∧
      ((∀ arm ∈ g.succs id, g.ImmediatelyDominates entry id arm) → root = id) := by
  obtain ⟨root, chosen, widest⟩ := Option.bind_eq_some_iff.mp found
  obtain ⟨above, direct⟩ := switchRoot?_spec wf live switch reached chosen
  have member := (List.mem_filter.mp (greatest?_spec widest).1).1
  exact ⟨root, above, (mem_joins_iff wf live).mp member, direct⟩

end

/-! ## What a search looks at -/

/-- Two graphs that differ in the follows of conditionals only. -/
structure SameButFollows (g h : FlowGraph) : Prop where
  core : g.SameCore h
  notes : ∀ id, (g.notes? id).map Notes.withoutFollow = (h.notes? id).map Notes.withoutFollow

namespace SameButFollows

theorem refl (g : FlowGraph) : g.SameButFollows g := ⟨.refl g, fun _ => Eq.refl _⟩

theorem trans {k : FlowGraph} (first : g.SameButFollows h) (second : h.SameButFollows k) :
    g.SameButFollows k :=
  ⟨first.core.trans second.core, fun id => (first.notes id).trans (second.notes id)⟩

theorem annotate (id : NodeId) (follow : Option NodeId) :
    (g.annotate id fun notes => { notes with follow := follow }).SameButFollows g := by
  refine ⟨sameCore_annotate id _, ?_⟩
  intro other
  by_cases same : other = id
  · rw [same, annotate_notes?_self, Option.map_map]
    rfl
  · rw [annotate_notes? same]

theorem foldl_annotate (ids : List NodeId) (follow : Option NodeId) :
    (ids.foldl (fun g id => g.annotate id fun notes => { notes with follow := follow })
      g).SameButFollows g := by
  induction ids generalizing g with
  | nil => exact refl g
  | cons id rest ih => exact ih.trans (annotate id follow)

theorem isSwitch (same : g.SameCore h) : g.isSwitch = h.isSwitch := by
  funext id
  rw [FlowGraph.isSwitch, same.succs]
  rfl

theorem isLoopTest (same : g.SameButFollows h) : g.isLoopTest = h.isLoopTest := by
  have kinds (id : NodeId) :
      (g.notes? id).bind Notes.loopKind = (h.notes? id).bind Notes.loopKind := by
    have bare := congrArg (fun notes => Option.bind notes Notes.loopKind) (same.notes id)
    simpa [Option.bind_map, Function.comp_def, Notes.withoutFollow] using bare
  funext id
  have bare := same.notes id
  unfold FlowGraph.isLoopTest
  cases left : g.notes? id with
  | none =>
    cases right : h.notes? id with
    | none => rfl
    | some notes => simp [left, right] at bare
  | some notes =>
    cases right : h.notes? id with
    | none => simp [left, right] at bare
    | some other =>
      have equal : notes.withoutFollow = other.withoutFollow := by simpa [left, right] using bare
      have kind := congrArg Notes.loopKind equal
      have head := congrArg Notes.loopHead equal
      have latch := congrArg Notes.isLatch equal
      simp only [Notes.withoutFollow] at kind head latch
      simp only [kind, head, latch, Option.bind_assoc, kinds]

theorem isTest (same : g.SameButFollows h) : g.isTest = h.isTest := by
  funext id
  rw [FlowGraph.isTest, same.isLoopTest, same.core.succs]
  rfl

end SameButFollows

theorem SameCore.inDegree (same : g.SameCore h) : g.inDegree = h.inDegree := by
  funext id
  rw [FlowGraph.inDegree, same.preds]
  rfl

theorem SameCore.joins (same : g.SameCore h) : g.joins = h.joins := by
  funext dom id
  rw [FlowGraph.joins, same.inDegree]
  rfl

theorem SameCore.switchFollow? (same : g.SameCore h) : g.switchFollow? = h.switchFollow? := by
  funext dom numbering id
  have roots : g.switchRoot? dom id = h.switchRoot? dom id := by
    rw [switchRoot?, same.succs]
    rfl
  have widest (joins : List NodeId) :
      g.widestJoin? numbering joins = h.widestJoin? numbering joins := by
    rw [widestJoin?, same.inDegree]
    rfl
  simp only [FlowGraph.switchFollow?, roots, same.joins, widest]

theorem SameCore.testFollow? (same : g.SameCore h) : g.testFollow? = h.testFollow? := by
  funext dom numbering id
  rw [FlowGraph.testFollow?, same.joins]
  rfl

theorem SameCore.switchRegion? (same : g.SameCore h) : g.switchRegion? = h.switchRegion? := by
  funext id follow
  rw [FlowGraph.switchRegion?, same.label, same.succs]
  rfl

theorem SameCore.testRegion? (same : g.SameCore h) : g.testRegion? = h.testRegion? := by
  funext id follow
  rw [FlowGraph.testRegion?, same.label, same.succs]
  rfl

theorem test?_testRegion? {region : Region} (recorded : g.testRegion? id f = some region) :
    region.test? = some (g.label id) := by
  unfold testRegion? at recorded
  split at recorded
  · split at recorded <;> cases recorded <;> rfl
  · cases recorded

namespace FollowSearch

/-- A search that does not look at the follows that it gives, and records every conditional that it
covers. -/
structure Steady (search : FollowSearch) : Prop where
  covers_eq : ∀ {g h : FlowGraph}, g.SameButFollows h → search.covers g = search.covers h
  follow?_eq : ∀ {g h : FlowGraph}, g.SameCore h → search.follow? g = search.follow? h
  region?_eq : ∀ {g h : FlowGraph}, g.SameCore h → search.region? g = search.region? h
  records : ∀ {g : FlowGraph} {id : NodeId} (follow : NodeId), search.covers g id = true →
    ∃ region, search.region? g id follow = some region ∧
      region.choice? = some (g.label id, g.label follow)

theorem switches_steady : switches.Steady where
  covers_eq same := SameButFollows.isSwitch same.core
  follow?_eq same := same.switchFollow?
  region?_eq same := same.switchRegion?
  records _ _ := ⟨_, rfl, rfl⟩

theorem tests_steady : tests.Steady where
  covers_eq same := same.isTest
  follow?_eq same := same.testFollow?
  region?_eq same := same.testRegion?
  records {g id} follow covered := by
    have two : (g.succs id).length = 2 := by
      simp only [tests, isTest, Bool.and_eq_true, beq_iff_eq] at covered
      exact covered.1
    obtain ⟨first, second, arms⟩ := List.length_eq_two.mp two
    simp only [tests, testRegion?, arms]
    split
    · exact ⟨_, rfl, rfl⟩
    · exact ⟨_, rfl, rfl⟩

end FollowSearch

end FlowGraph

end ControlFlow
