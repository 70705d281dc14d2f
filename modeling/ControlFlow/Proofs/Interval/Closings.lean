import ControlFlow.Proofs.Interval.Reducibility
import ControlFlow.Proofs.Interval.Loops
import ControlFlow.Proofs.Interval.NaturalLoop

/-! Closing edges. An edge of a derived graph can be traced back, level by level, to an edge of the
first graph, and what dominates in a derived graph has a top that dominates in the first one. So
every closing edge leads back to a dominator. Closing edges are found from the inside out: no head
of a later one lies in the loop of an earlier one, unless it is the head of that as well. They are
complete if the sequence ends in a single node and each head has one closing edge only. -/
namespace ControlFlow

/-! ## The last node that leads to another one -/

namespace Level

variable {level : Level} {i : Interval} {id p q : NodeId}

theorem latestPred?_spec (found : level.latestPred? i id = some p) :
    p ∈ i.nodes ∧ level.graph.Step p id := by
  have member := (greatest?_spec found).1
  rw [List.mem_filter, List.contains_iff_mem] at member
  exact ⟨member.2, FlowGraph.mem_preds_iff_mem_succs.mp member.1⟩

theorem exists_latestPred? (member : q ∈ i.nodes) (edge : level.graph.Step q id) :
    ∃ p, level.latestPred? i id = some p := by
  refine Option.ne_none_iff_exists'.mp fun none => ?_
  have listed : q ∈ (level.graph.preds id).filter i.nodes.contains := by
    rw [List.mem_filter, List.contains_iff_mem]
    exact ⟨FlowGraph.mem_preds_iff_mem_succs.mpr edge, member⟩
  rw [greatest?_eq_none_iff.mp none] at listed
  cases listed

end Level

namespace FlowGraph

variable {g h k : FlowGraph} {start startK startH a b m n head latch : NodeId} {below : List Level}
variable {levels : List Level} {rep top : NodeId → NodeId} {i j : Interval}

/-- Traces the label of a latch back through the levels below. -/
abbrev traceBack (below : List Level) (head latch : String) : Option String :=
  below.foldlM (fun latch (level : Level) => level.descend? head latch) latch

/-- A derived graph is a quotient of the first one, and its edges can be traced back: each stands
for an edge of the first graph, from the part that its source stands for. -/
structure Traceable (g : FlowGraph) (start : NodeId) (below : List Level) (k : FlowGraph)
    (startK : NodeId) (rep top : NodeId → NodeId) : Prop where
  quotient : g.IsQuotient start k startK rep top
  traces : ∀ a b, k.Step a b → ∃ m, g.Reaches start m ∧ rep m = a ∧ g.Step m (top b) ∧
    traceBack below (k.label b) (k.label a) = some (g.label m)

theorem Traceable.refl (wf : g.WellFormed) (live : start ∈ g.nodeIds)
    (all : ∀ n ∈ g.nodeIds, g.Reaches start n) : g.Traceable start [] g start id id where
  quotient := .refl wf live all
  traces a _ edge := ⟨a, all a (wf.source_live edge), rfl, edge, rfl⟩

theorem find?_header (wf : g.WellFormed) (live : start ∈ g.nodeIds) {intervals : List Interval}
    (divides : Interval.Divides g start [] intervals) (found : i ∈ intervals) :
    intervals.find? (fun j => g.label j.header == g.label i.header) = some i := by
  refine find?_of_only found (by simp) fun j other labels => ?_
  have headers : j.header = i.header :=
    wf.label_inj (divides.header_live wf live other) (divides.header_live wf live found)
      (by simpa using labels)
  exact divides.eq_of_header other found (headers ▸ (divides.single j other).header_mem)

/-- Edges of the graph derived next can be traced back through one more level. -/
theorem Traceable.derive (traceable : g.Traceable start below k startK rep top)
    (derives : k.Derives startK h startH) :
    g.Traceable start (⟨k, k.intervalsFrom startK⟩ :: below) h startH
      (k.repIn h (k.intervalsFrom startK) ∘ rep) (top ∘ k.topIn h) := by
  have wf := traceable.quotient.wf
  have live := traceable.quotient.live
  have divides := intervalsFrom_divides wf live
  refine ⟨traceable.quotient.trans (derives.isQuotient wf live), fun a b edge => ?_⟩
  obtain ⟨⟨i, j⟩, pair, named, named'⟩ := (derives.collapsed.steps a b).mp edge
  obtain ⟨found, found', -, q, member, exit⟩ := mem_intervalEdges.mp pair
  obtain ⟨p, latest⟩ : ∃ p, Level.latestPred? ⟨k, k.intervalsFrom startK⟩ i j.header = some p :=
    Level.exists_latestPred? member exit
  obtain ⟨inside, entering⟩ := Level.latestPred?_spec latest
  obtain ⟨m, reached, rfl, stepped, traced⟩ := traceable.traces p j.header entering
  have labelA := derives.collapsed.wf.label_of_find? named
  have labelB := derives.collapsed.wf.label_of_find? named'
  have header := derives.collapsed.topIn_eq wf live divides found' named'
  refine ⟨m, reached, repIn_eq divides found named inside, ?_, ?_⟩
  · rw [Function.comp_apply, header]
    exact stepped
  · have descended : Level.descend? ⟨k, k.intervalsFrom startK⟩ (h.label b) (h.label a) =
        some (k.label (rep m)) := by
      simp only [Level.descend?, labelA, labelB, wf.find?_label (divides.header_live wf live found'),
        find?_header wf live divides found, Option.bind_eq_bind, Option.bind_some, latest]
      rfl
    rw [traceBack, List.foldlM_cons, descended, labelB]
    exact traced

/-- What heads an interval of the graph derived next has the top of a header of this level. -/
theorem Traceable.exists_header (traceable : g.Traceable start below k startK rep top)
    (derives : k.Derives startK h startH) (found : j ∈ h.intervalsFrom startH) :
    ∃ i ∈ k.intervalsFrom startK, top (k.topIn h j.header) = top i.header := by
  have wf := traceable.quotient.wf
  have live := traceable.quotient.live
  have next := derives.isQuotient wf live
  have header := (intervalsFrom_divides next.wf next.live).header_live next.wf next.live found
  obtain ⟨i, found', named⟩ := derives.collapsed.exists_interval header
  exact ⟨i, found', congrArg top
    (derives.collapsed.topIn_eq wf live (intervalsFrom_divides wf live) found' named)⟩

/-! ## The closing edges of one level -/

/-- The head of a closing edge heads its interval: below the header of an interval edges lead on
only. -/
theorem ClosesLoop.header_eq (closes : k.ClosesLoop startK a b) (wf : k.WellFormed)
    (live : startK ∈ k.nodeIds) (found : i ∈ k.intervalsFrom startK) (member : a ∈ i.nodes) :
    i.header = a := by
  have divides := intervalsFrom_divides wf live
  have single := divides.single i found
  by_contra inner
  obtain ⟨inside, earlier⟩ := single.pred member (Ne.symm inner) closes.edge
  have later := (single.dominator (divides.reached i found) (ranking wf live)
    (divides.header_dominates found member) closes.dominates inside).2
  exact Nat.not_lt.mpr later earlier

/-- The nodes of a closing edge. -/
def closingNodes? (g : FlowGraph) (labels : String × String) : Option (NodeId × NodeId) :=
  (g.find? labels.1).bind fun head => (g.find? labels.2).map fun latch => (head, latch)

/-- The closing edges of some levels as edges of the first graph. -/
def closingsOf (g : FlowGraph) (below levels : List Level) : List (NodeId × NodeId) :=
  (Level.tracedClosings below levels).filterMap g.closingNodes?

/-- The closing edge of an interval, if control comes back to its header from inside. -/
def closing? (g : FlowGraph) (below : List Level) (level : Level) (i : Interval) :
    Option (NodeId × NodeId) :=
  (level.latestPred? i i.header).bind fun latch =>
    (traceBack below (level.graph.label i.header) (level.graph.label latch)).bind fun latch =>
      g.closingNodes? (level.graph.label i.header, latch)

theorem closingsOf_cons {level : Level} : g.closingsOf below (level :: levels) =
    level.intervals.filterMap (g.closing? below level) ++ g.closingsOf (level :: below) levels := by
  rw [closingsOf, Level.tracedClosings, List.filterMap_append, List.filterMap_filterMap,
    Level.closings, List.filterMap_filterMap]
  congr 2
  funext i
  simp only [closing?, Option.bind_map, Function.comp_def]

section

variable (wf : g.WellFormed) (traceable : g.Traceable start below k startK rep top)
  (found : i ∈ k.intervalsFrom startK)
include wf traceable found

/-- If control comes back to the header of an interval, the interval has a closing edge. -/
theorem exists_closing? {q : NodeId} (member : q ∈ i.nodes) (edge : k.Step q i.header) :
    ∃ latch, g.closing? below ⟨k, k.intervalsFrom startK⟩ i = some (top i.header, latch) ∧
      g.Reaches start latch ∧ rep latch ∈ i.nodes ∧ g.Step latch (top i.header) := by
  have divides := intervalsFrom_divides traceable.quotient.wf traceable.quotient.live
  have header := divides.header_live traceable.quotient.wf traceable.quotient.live found
  obtain ⟨p, latest⟩ : ∃ p, Level.latestPred? ⟨k, k.intervalsFrom startK⟩ i i.header = some p :=
    Level.exists_latestPred? member edge
  obtain ⟨inside, entering⟩ := Level.latestPred?_spec latest
  obtain ⟨m, reached, rfl, stepped, traced⟩ := traceable.traces p i.header entering
  refine ⟨m, ?_, reached, inside, stepped⟩
  have headFound : g.find? (k.label i.header) = some (top i.header) := by
    rw [← traceable.quotient.label_top _ header]
    exact wf.find?_label (wf.target_live stepped)
  simp only [closing?, latest, Option.bind_some, traced, closingNodes?, headFound,
    wf.find?_label (wf.source_live stepped), Option.map_some]

/-- The closing edge of an interval leads back to the top of its header. -/
theorem closing?_spec
    (closing : g.closing? below ⟨k, k.intervalsFrom startK⟩ i = some (head, latch)) :
    head = top i.header ∧ rep latch ∈ i.nodes ∧ g.ClosesLoop start head latch := by
  have divides := intervalsFrom_divides traceable.quotient.wf traceable.quotient.live
  obtain ⟨p, latest, -⟩ := Option.bind_eq_some_iff.mp closing
  obtain ⟨member, edge⟩ := Level.latestPred?_spec latest
  obtain ⟨m, same, reached, inside, stepped⟩ := exists_closing? wf traceable found member edge
  obtain ⟨rfl, rfl⟩ := Prod.mk.inj (Option.some.inj (closing.symm.trans same))
  have dominates := divides.header_dominates found inside
  exact ⟨rfl, inside, stepped, traceable.quotient.dominates_top reached dominates⟩

/-- The header of another interval is not in the loop: a way from there to the latch comes into
the interval through its header. -/
theorem not_inLoop_of_ne
    (closing : g.closing? below ⟨k, k.intervalsFrom startK⟩ i = some (head, latch))
    (other : j ∈ k.intervalsFrom startK) (different : j ≠ i) :
    ¬g.InLoop head latch (top j.header) := by
  have divides := intervalsFrom_divides traceable.quotient.wf traceable.quotient.live
  obtain ⟨rfl, inside, -⟩ := closing?_spec wf traceable found closing
  have live := divides.header_live traceable.quotient.wf traceable.quotient.live other
  have outside : j.header ∉ i.nodes := fun member =>
    different (divides.eq_of_header found other member).symm
  have repHeader := traceable.quotient.rep_top _ live
  rintro (same | ⟨passed, walk, around⟩)
  · have headerLive := divides.header_live traceable.quotient.wf traceable.quotient.live found
    have headers : j.header = i.header := by
      rw [← repHeader, same, traceable.quotient.rep_top _ headerLive]
    exact outside (headers ▸ (divides.single i found).header_mem)
  · obtain ⟨further, way, tops⟩ :=
      traceable.quotient.project (traceable.quotient.top_reached _ live) walk
    rw [repHeader] at way tops
    refine outside ((divides.single i found).mem_of_walk way inside fun member => ?_)
    rcases tops i.header member with same | passing
    · exact outside (same ▸ (divides.single i found).header_mem)
    · exact around passing

end

/-- A closing edge within an interval is found if it is the only one of its head. -/
theorem mem_level_closings (wf : g.WellFormed)
    (traceable : g.Traceable start below k startK rep top) (found : i ∈ k.intervalsFrom startK)
    (single : ∀ m, g.ClosesLoop start head m → m = latch) (headed : top i.header = head)
    (member : rep latch ∈ i.nodes) (edge : k.Step (rep latch) i.header) :
    (head, latch) ∈
      (k.intervalsFrom startK).filterMap (g.closing? below ⟨k, k.intervalsFrom startK⟩) := by
  obtain ⟨m, closing, -⟩ := exists_closing? wf traceable found member edge
  have closes := (closing?_spec wf traceable found closing).2.2
  rw [headed] at closing closes
  exact List.mem_filterMap.mpr ⟨i, found, single m closes ▸ closing⟩

/-- The head of the later one of two loops is not inside the earlier one, unless it is the head of
both. -/
def InsideOut (g : FlowGraph) (earlier later : NodeId × NodeId) : Prop :=
  later.1 = earlier.1 ∨ ¬g.InLoop earlier.1 earlier.2 later.1

/-- The closing edges of one level, and each of them before any with a head that is the top of some
header of the level. -/
theorem level_insideOut (wf : g.WellFormed)
    (traceable : g.Traceable start below k startK rep top) {later : List (NodeId × NodeId)}
    (ordered : later.Pairwise g.InsideOut)
    (heads : ∀ d ∈ later, ∃ j ∈ k.intervalsFrom startK, d.1 = top j.header) :
    ((k.intervalsFrom startK).filterMap (g.closing? below ⟨k, k.intervalsFrom startK⟩) ++
      later).Pairwise g.InsideOut := by
  have divides := intervalsFrom_divides traceable.quotient.wf traceable.quotient.live
  refine List.pairwise_append.mpr ⟨List.pairwise_filterMap.mpr ?_, ordered, ?_⟩
  · refine divides.disjoint.imp_of_mem fun {i j} found found' apart c closing d closing' => ?_
    have different : j ≠ i := by
      rintro rfl
      exact apart (divides.single j found).header_mem (divides.single j found).header_mem
    right
    rw [(closing?_spec wf traceable found' closing').1]
    exact not_inLoop_of_ne wf traceable found closing found' different
  · intro c here d member
    obtain ⟨i, found, closing⟩ := List.mem_filterMap.mp here
    obtain ⟨j, found', headed⟩ := heads d member
    rw [InsideOut, headed]
    by_cases same : j = i
    · rw [same, (closing?_spec wf traceable found closing).1]
      exact .inl rfl
    · exact .inr (not_inLoop_of_ne wf traceable found closing found' same)

/-! ## The closing edges of all levels -/

namespace Derivation

variable (wf : g.WellFormed)
include wf

/-- A closing edge leads back to a dominator, which is the top of the header of an interval of the
level that the sequence begins with. -/
theorem closes (derivation : Derivation k startK levels)
    (traceable : g.Traceable start below k startK rep top) :
    ∀ c ∈ g.closingsOf below levels,
      g.ClosesLoop start c.1 c.2 ∧ ∃ i ∈ k.intervalsFrom startK, c.1 = top i.header := by
  induction derivation generalizing below rep top with
  | last derives same =>
    intro c member
    rw [closingsOf_cons, List.mem_append] at member
    obtain ⟨i, found, closing⟩ := List.mem_filterMap.mp (member.resolve_right List.not_mem_nil)
    obtain ⟨headed, -, closes⟩ := closing?_spec wf traceable found closing
    exact ⟨closes, i, found, headed⟩
  | more derives smaller rest ih =>
    intro c member
    rw [closingsOf_cons] at member
    rcases List.mem_append.mp member with here | later
    · obtain ⟨i, found, closing⟩ := List.mem_filterMap.mp here
      obtain ⟨headed, -, closes⟩ := closing?_spec wf traceable found closing
      exact ⟨closes, i, found, headed⟩
    · obtain ⟨closes, j, found, headed⟩ := ih (traceable.derive derives) c later
      obtain ⟨i, found', same⟩ := traceable.exists_header derives found
      exact ⟨closes, i, found', headed.trans same⟩

/-- Closing edges are found from the inside out. -/
theorem insideOut (derivation : Derivation k startK levels)
    (traceable : g.Traceable start below k startK rep top) :
    (g.closingsOf below levels).Pairwise g.InsideOut := by
  induction derivation generalizing below rep top with
  | last derives same =>
    rw [closingsOf_cons]
    exact level_insideOut wf traceable .nil nofun
  | more derives smaller rest ih =>
    have next := traceable.derive derives
    rw [closingsOf_cons]
    refine level_insideOut wf traceable (ih next) fun d member => ?_
    obtain ⟨-, j, found, headed⟩ := rest.closes wf next d member
    obtain ⟨i, found', same⟩ := traceable.exists_header derives found
    exact ⟨i, found', headed.trans same⟩

/-- The only closing edge of a head is found if the sequence ends in a single node. It vanishes into
an interval on some level, and that is the interval of its head, since the head dominates all of
it. -/
theorem mem_closings (derivation : Derivation k startK levels)
    (traceable : g.Traceable start below k startK rep top) (limit : Level.limitSize levels = 1)
    (closes : g.ClosesLoop start head latch)
    (single : ∀ m, g.ClosesLoop start head m → m = latch)
    (edge : k.Step (rep latch) (rep head)) (entered : top (rep head) = head) :
    (head, latch) ∈ g.closingsOf below levels := by
  induction derivation generalizing below rep top with
  | @last k h startK startH derives same =>
    have wfK := traceable.quotient.wf
    have divides := intervalsFrom_divides wfK traceable.quotient.live
    obtain ⟨i, found, member⟩ :=
      divides.exists_interval (traceable.quotient.reaches_rep closes.dominates.1)
    have headed : i.header = rep head := eq_of_size_eq_one limit
      (divides.header_live wfK traceable.quotient.live found) (wfK.target_live edge)
    rw [closingsOf_cons]
    exact List.mem_append_left _ (mem_level_closings wf traceable found single
      (headed ▸ entered) member (headed ▸ edge))
  | @more k h startK startH levels derives smaller rest ih =>
    have wfK := traceable.quotient.wf
    have liveK := traceable.quotient.live
    have divides := intervalsFrom_divides wfK liveK
    have reached := traceable.quotient.reaches_rep closes.dominates.1
    obtain ⟨i, found, member⟩ := divides.exists_interval reached
    rw [closingsOf_cons]
    by_cases headed : i.header = rep head
    · exact List.mem_append_left _ (mem_level_closings wf traceable found single
        (headed ▸ entered) member (headed ▸ edge))
    · obtain ⟨j, found', member'⟩ := divides.exists_interval (reached.step edge)
      have back : k.ClosesLoop startK (rep head) (rep latch) :=
        ⟨edge, traceable.quotient.dominates_rep closes.dominates⟩
      have headed' : j.header = rep head := back.header_eq wfK liveK found' member'
      obtain ⟨a, named⟩ := derives.collapsed.exists_node found
      obtain ⟨b, named'⟩ := derives.collapsed.exists_node found'
      have different : i.header ≠ j.header := fun same => headed (same.trans headed')
      have exit : h.Step a b := (derives.collapsed.steps a b).mpr ⟨(i, j), mem_intervalEdges.mpr
        ⟨found, found', different, _, member, headed' ▸ edge⟩, named, named'⟩
      refine List.mem_append_right _ (ih (traceable.derive derives) ?_ ?_ ?_)
      · rwa [rest.limitSize_cons] at limit
      · simpa only [Function.comp_apply, repIn_eq divides found named member,
          repIn_eq divides found' named' member'] using exit
      · simp only [Function.comp_apply, repIn_eq divides found' named' member',
          derives.collapsed.topIn_eq wfK liveK divides found' named', headed', entered]

/-- An edge from a node to itself is found on the first level. -/
theorem mem_closings_self (derivation : Derivation g start levels) (live : start ∈ g.nodeIds)
    (all : ∀ n ∈ g.nodeIds, g.Reaches start n) (closes : g.ClosesLoop start head head)
    (single : ∀ m, g.ClosesLoop start head m → m = head) :
    (head, head) ∈ g.closingsOf [] levels := by
  have traceable := Traceable.refl wf live all
  have divides := intervalsFrom_divides wf live
  obtain ⟨i, found, member⟩ := divides.exists_interval closes.dominates.1
  have headed : i.header = head := closes.header_eq wf live found member
  have here := mem_level_closings wf traceable found single headed member (headed ▸ closes.edge)
  cases derivation <;> rw [closingsOf_cons] <;> exact List.mem_append_left _ here

end Derivation

end FlowGraph

end ControlFlow
