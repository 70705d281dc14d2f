import ControlFlow.Graph.Traversal
import ControlFlow.Proofs.Graph.Dominators

/-! Depth-first orders. A traversal that keeps its own way down makes the same visits as the
recursive search: what it does between looking at a node's successors and leaving the node is the
walk around the trees below that node. All orders and numbers are therefore read off one forest.
An edge leads on in reverse postorder or back to a node that encloses its source in the search. -/
namespace ControlFlow

/-! ## Visits -/

namespace Forest

theorem filterMap_entered?_visits (forest : Forest) :
    forest.visits.filterMap Visit.entered? = forest.preorder := by
  induction forest with
  | empty => rfl
  | tree root below right belowIh rightIh =>
    simp [visits, preorder, Visit.entered?, List.filterMap_cons, belowIh, rightIh]

theorem filterMap_left?_visits (forest : Forest) :
    forest.visits.filterMap Visit.left? = forest.postorder := by
  induction forest with
  | empty => rfl
  | tree root below right belowIh rightIh =>
    simp [visits, postorder, Visit.left?, List.filterMap_cons, belowIh, rightIh]

end Forest

namespace Traversal

variable {succs : NodeId → List NodeId} {node next : NodeId} {ahead unmet : List NodeId}
  {above : List Frame}

theorem visits_of_look {t after : Traversal} {visit? : Option Visit}
    (looked : t.look succs = some (visit?, after)) :
    t.visits succs = visit?.toList ++ after.visits succs := by
  rw [visits]
  split
  · rename_i stopped
    cases stopped.symm.trans looked
  · rename_i found
    cases found.symm.trans looked
    rfl

theorem visits_done (unmet : List NodeId) : visits succs ⟨[], unmet⟩ = [] := by
  rw [visits]
  rfl

theorem visits_leave : visits succs ⟨⟨node, []⟩ :: above, unmet⟩ =
    .leave node :: visits succs ⟨above, unmet⟩ :=
  have looked : look succs ⟨⟨node, []⟩ :: above, unmet⟩ =
      some (some (.leave node), ⟨above, unmet⟩) := rfl
  visits_of_look looked

theorem visits_enter (new : next ∈ unmet) :
    visits succs ⟨⟨node, next :: ahead⟩ :: above, unmet⟩ =
      .enter next :: visits succs ⟨⟨next, succs next⟩ :: ⟨node, ahead⟩ :: above,
        unmet.erase next⟩ :=
  have looked : look succs ⟨⟨node, next :: ahead⟩ :: above, unmet⟩ = some (some (.enter next),
      ⟨⟨next, succs next⟩ :: ⟨node, ahead⟩ :: above, unmet.erase next⟩) :=
    if_pos (List.contains_iff_mem.mpr new)
  visits_of_look looked

theorem visits_pass (old : next ∉ unmet) :
    visits succs ⟨⟨node, next :: ahead⟩ :: above, unmet⟩ =
      visits succs ⟨⟨node, ahead⟩ :: above, unmet⟩ :=
  have looked : look succs ⟨⟨node, next :: ahead⟩ :: above, unmet⟩ =
      some (none, ⟨⟨node, ahead⟩ :: above, unmet⟩) :=
    if_neg (mt List.contains_iff_mem.mp old)
  visits_of_look looked

/-- With nothing left to meet a traversal only goes back. -/
theorem visits_of_all_met (ahead : List NodeId) :
    visits succs ⟨⟨node, ahead⟩ :: above, []⟩ = .leave node :: visits succs ⟨above, []⟩ := by
  induction ahead with
  | nil => exact visits_leave
  | cons next ahead ih => rw [visits_pass List.not_mem_nil, ih]

/-- Between looking at a node's successors and leaving the node a traversal makes the visits of the
search from these successors. -/
theorem visits_eq_searchTo (depth : Nat) {unmet : List NodeId} (nodup : unmet.Nodup)
    (bound : unmet.length ≤ depth) (node : NodeId) (ahead : List NodeId) (above : List Frame) :
    visits succs ⟨⟨node, ahead⟩ :: above, unmet⟩ =
      (searchTo succs depth unmet ahead).1.visits ++
        .leave node :: visits succs ⟨above, (searchTo succs depth unmet ahead).2⟩ := by
  induction depth generalizing unmet node ahead above with
  | zero =>
    obtain rfl := List.eq_nil_of_length_eq_zero (Nat.le_zero.mp bound)
    exact visits_of_all_met ahead
  | succ depth deeper =>
    induction ahead generalizing unmet with
    | nil => exact visits_leave
    | cons next ahead ih =>
      by_cases new : next ∈ unmet
      · have shorter : (unmet.erase next).length ≤ depth := by
          rw [List.length_erase_of_mem new]
          omega
        have descent := @searchTo_searched succs depth (unmet.erase next) (succs next)
          (nodup.erase next) shorter
        have others := ih (descent.rest_nodup (nodup.erase next))
          (Nat.le_trans descent.length_le (Nat.le_succ_of_le shorter))
        rw [visits_enter new, deeper (nodup.erase next) shorter, others]
        simp [searchTo, searchRoots, new, Forest.visits]
      · rw [visits_pass new, ih nodup bound]
        simp [searchTo, searchRoots, new]

/-- The next node that is met is the first one that the visits to come enter. -/
theorem entered_visits (t : Traversal) :
    (t.visits succs).filterMap Visit.entered? =
      match t.next? succs with
      | none => []
      | some (id, after) => id :: (after.visits succs).filterMap Visit.entered? := by
  fun_induction next? succs t with
  | case1 t stopped =>
    rw [visits]
    split
    · rfl
    · rename_i looked
      cases stopped.symm.trans looked
  | case2 t id after looked =>
    rw [visits_of_look looked]
    rfl
  | case3 t visit? after other looked ih =>
    rw [visits_of_look looked, List.filterMap_append, ih]
    cases visit? with
    | none => rfl
    | some visit =>
      cases visit with
      | enter id => exact (other id rfl).elim
      | leave id => rfl

/-- Asking for one node at a time gives the nodes that the visits to come enter. -/
theorem upcoming_eq (t : Traversal) :
    t.upcoming succs = (t.visits succs).filterMap Visit.entered? := by
  fun_induction upcoming succs t with
  | case1 t stopped => rw [entered_visits, stopped]
  | case2 t id after found ih => rw [entered_visits, found, ih]

end Traversal

/-! ## Numbers -/

/-- Numbers count some nodes: those and no other ones have a number, and every number below the
count is the number of one node. -/
structure Counts (number? : NodeId → Option Nat) (counted : NodeId → Prop) (count : Nat) :
    Prop where
  numbered : ∀ id, (number? id).isSome = true ↔ counted id
  below : ∀ {id number}, number? id = some number → number < count
  unique : ∀ number < count, ∃! id, number? id = some number

namespace Counts

/-- Places in an order without repetitions count its nodes. -/
theorem places {order : List NodeId} (nodup : order.Nodup) :
    Counts (fun id => order.idxOf? id) (· ∈ order) order.length where
  numbered _ := List.isSome_idxOf?
  below found := (List.getElem?_eq_some_iff.mp ((idxOf?_eq_some_iff_getElem? nodup).mp found)).1
  unique number inside := by
    have placed := (idxOf?_eq_some_iff_getElem? nodup).mpr (List.getElem?_eq_getElem inside)
    refine ⟨order[number], placed, fun id found => ?_⟩
    exact (List.getElem?_eq_some_iff.mp ((idxOf?_eq_some_iff_getElem? nodup).mp found)).2.symm

variable {number? : NodeId → Option Nat} {counted other : NodeId → Prop} {count : Nat}

theorem congr (counts : Counts number? counted count) (same : ∀ id, counted id ↔ other id) :
    Counts number? other count where
  numbered id := (counts.numbered id).trans (same id)
  below := counts.below
  unique := counts.unique

/-- Numbers that count down count the same nodes. -/
theorem down (counts : Counts number? counted count) :
    Counts (fun id => (number? id).map fun number => count - 1 - number) counted count where
  numbered id := by rw [Option.isSome_map, counts.numbered]
  below found := by
    obtain ⟨number, known, rfl⟩ := Option.map_eq_some_iff.mp found
    have := counts.below known
    omega
  unique number inside := by
    obtain ⟨id, known, single⟩ := counts.unique (count - 1 - number) (by omega)
    refine ⟨id, Option.map_eq_some_iff.mpr ⟨_, known, by omega⟩, fun other found => ?_⟩
    obtain ⟨back, known', turned⟩ := Option.map_eq_some_iff.mp found
    have := counts.below known'
    have same : number? other = some (count - 1 - number) := by
      rw [known']
      congr 1
      omega
    exact single other same

end Counts

namespace FlowGraph

variable {g : FlowGraph} {start : NodeId}

/-- The search from a live node gives one tree. -/
theorem search_eq_tree (live : start ∈ g.nodeIds) :
    g.search start = .tree start
      (searchTo g.succs (g.nodeIds.length - 1) (g.nodeIds.erase start) (g.succs start)).1 .empty := by
  obtain ⟨depth, size⟩ := Nat.exists_eq_succ_of_ne_zero
    (Nat.ne_of_gt (List.length_pos_of_mem live))
  simp [search, searchFrom, size, searchTo, searchRoots, live]

/-- A traversal makes the visits of the recursive search. -/
theorem depthFirst_eq (wf : g.WellFormed) (start : NodeId) :
    g.depthFirst start = (g.search start).visits := by
  by_cases live : start ∈ g.nodeIds
  · have shorter := (List.length_erase_of_mem live).le
    have descent := @Traversal.visits_eq_searchTo g.succs _ _ (wf.idsNodup.erase start)
      shorter start (g.succs start) []
    simp only [depthFirst, traversal?, contains_iff.mpr live, if_true, Traversal.enter, descent,
      Traversal.visits_done, search_eq_tree live, Forest.visits]
  · have absent : g.contains start = false := contains_eq_false_iff.mpr live
    simp [depthFirst, traversal?, absent, search_of_dead live, Forest.visits]

/-- Asking for one node at a time gives the nodes in the order in which the search meets them. -/
theorem preorder_eq (wf : g.WellFormed) (start : NodeId) :
    g.preorder start = (g.search start).preorder := by
  rw [← Forest.filterMap_entered?_visits, ← depthFirst_eq wf]
  cases found : g.traversal? start with
  | none => simp [preorder, depthFirst, found]
  | some t => simp [preorder, depthFirst, found, Traversal.upcoming_eq, Visit.entered?]

theorem postorder_eq (wf : g.WellFormed) (start : NodeId) :
    g.postorder start = (g.search start).postorder := by
  rw [postorder, depthFirst_eq wf, Forest.filterMap_left?_visits]

/-! ## Edges -/

theorem reaches_of_descended {forest : Forest} {a b : NodeId}
    (path : Descended g.succs forest a b) : g.Reaches a b := by
  induction path with
  | refl => exact .refl a
  | tail _ hop ih => exact ih.step hop.1

/-- An edge leads to a node that is left earlier, or back to a node that encloses its source. -/
theorem left_earlier_or_above (wf : g.WellFormed) {a b : NodeId}
    (met : a ∈ (g.search start).preorder) (edge : g.Step a b) :
    [b, a].Sublist (g.search start).postorder ∨
      (g.search start).Above b a ∧ g.Reaches b a := by
  obtain ⟨rest, searched⟩ := @searchFrom_searched g.succs g.nodeIds [start] wf.idsNodup
  refine (searched.returns a met b edge (wf.target_live edge)).imp_right fun ⟨path, within⟩ => ?_
  exact ⟨within, reaches_of_descended path⟩

end FlowGraph

/-! ## Exact orders -/

/-- The three numbers of a node that was met. -/
structure Numbering.Places (n : Numbering) (id : NodeId) (pre post rev : Nat) : Prop where
  pre : n.preNum? id = some pre
  post : n.postNum? id = some post
  rev : n.revPostNum? id = some rev

namespace FlowGraph

variable {g : FlowGraph} {start : NodeId}

/-- The orders of a depth-first search from a start, and the numbers that they give, are those of
the nodes that can be reached from the start. -/
structure DepthFirstExact (g : FlowGraph) (start : NodeId) : Prop where
  /-- The traversal makes the visits of the recursive search. -/
  visits : g.depthFirst start = (g.search start).visits
  /-- Nodes asked for one at a time come as the traversal enters them. -/
  entered : g.preorder start = (g.depthFirst start).filterMap Visit.entered?
  met : (g.numbering start).met = g.preorder start
  left : (g.numbering start).left = g.postorder start
  reversed : (g.numbering start).reversePostorder = g.reversePostorder start
  preorder_nodup : (g.preorder start).Nodup
  postorder_nodup : (g.postorder start).Nodup
  reversePostorder_nodup : (g.reversePostorder start).Nodup
  mem_preorder : ∀ id, id ∈ g.preorder start ↔ start ∈ g.nodeIds ∧ g.Reaches start id
  mem_postorder : ∀ id, id ∈ g.postorder start ↔ start ∈ g.nodeIds ∧ g.Reaches start id
  mem_reversePostorder :
    ∀ id, id ∈ g.reversePostorder start ↔ start ∈ g.nodeIds ∧ g.Reaches start id
  pre : Counts (g.numbering start).preNum? (fun id => start ∈ g.nodeIds ∧ g.Reaches start id)
    (g.numbering start).count
  post : Counts (g.numbering start).postNum? (fun id => start ∈ g.nodeIds ∧ g.Reaches start id)
    (g.numbering start).count
  rev : Counts (g.numbering start).revPostNum? (fun id => start ∈ g.nodeIds ∧ g.Reaches start id)
    (g.numbering start).count
  /-- Numbers in reverse postorder count down from the last place. -/
  turned : ∀ {id pre post rev}, (g.numbering start).Places id pre post rev →
    rev = (g.numbering start).count - 1 - post
  /-- The start is met first and left last. -/
  first : start ∈ g.nodeIds →
    (g.numbering start).Places start 0 ((g.numbering start).count - 1) 0
  /-- An edge leads on in reverse postorder, or back to a node that encloses its source. -/
  edges : ∀ {a b pre post rev}, (g.numbering start).Places a pre post rev → g.Step a b →
    ∃ pre' post' rev', (g.numbering start).Places b pre' post' rev' ∧
      (rev < rev' ∨ (g.search start).Above b a ∧ pre' ≤ pre ∧ post ≤ post' ∧ g.Reaches b a)

/-- All orders of a search list the reached nodes. -/
private theorem numbering_counts (wf : g.WellFormed) (start : NodeId) :
    Counts (g.numbering start).preNum? (fun id => start ∈ g.nodeIds ∧ g.Reaches start id)
        (g.numbering start).count ∧
      Counts (g.numbering start).postNum? (fun id => start ∈ g.nodeIds ∧ g.Reaches start id)
        (g.numbering start).count := by
  have size : (g.numbering start).met.length = (g.numbering start).count :=
    (g.search start).postorder_perm.length_eq.symm
  constructor
  · exact size ▸ (Counts.places (numbering_met_nodup wf start)).congr
      fun _ => mem_search_iff_live wf
  · exact (Counts.places (numbering_left_nodup wf start)).congr
      fun _ => Forest.mem_postorder.trans (mem_search_iff_live wf)

/-- The start is met first and left last. -/
private theorem places_start (wf : g.WellFormed) (live : start ∈ g.nodeIds) :
    (g.numbering start).Places start 0 ((g.numbering start).count - 1) 0 := by
  have post : (g.numbering start).postNum? start = some ((g.numbering start).count - 1) := by
    refine (idxOf?_eq_some_iff_getElem? (numbering_left_nodup wf start)).mpr ?_
    simp [numbering, Numbering.ofForest, Numbering.count, search_eq_tree live, Forest.postorder]
  refine ⟨?_, post, ?_⟩
  · simp [numbering, Numbering.ofForest, Numbering.preNum?, search_eq_tree live, Forest.preorder,
      List.idxOf?_cons]
  · simp [Numbering.revPostNum?, post]

/-- All of the numbers of a reached node. -/
private theorem exists_places (wf : g.WellFormed) {id : NodeId}
    (met : id ∈ (g.search start).preorder) :
    ∃ pre post rev, (g.numbering start).Places id pre post rev := by
  obtain ⟨counted, countedPost⟩ := numbering_counts wf start
  have reached := (mem_search_iff_live wf).mp met
  obtain ⟨pre, foundPre⟩ := Option.isSome_iff_exists.mp ((counted.numbered id).mpr reached)
  obtain ⟨post, foundPost⟩ := Option.isSome_iff_exists.mp ((countedPost.numbered id).mpr reached)
  exact ⟨pre, post, _, foundPre, foundPost, by rw [Numbering.revPostNum?, foundPost]; rfl⟩

private theorem turned_of_places {id : NodeId} {pre post rev : Nat}
    (places : (g.numbering start).Places id pre post rev) :
    rev = (g.numbering start).count - 1 - post := by
  have found := places.rev
  rw [Numbering.revPostNum?, places.post] at found
  exact (Option.some.inj found).symm

/-- An edge leads on in reverse postorder, or back to a node that encloses its source. -/
private theorem places_of_step (wf : g.WellFormed) {a b : NodeId} {pre post rev : Nat}
    (places : (g.numbering start).Places a pre post rev) (edge : g.Step a b) :
    ∃ pre' post' rev', (g.numbering start).Places b pre' post' rev' ∧
      (rev < rev' ∨ (g.search start).Above b a ∧ pre' ≤ pre ∧ post ≤ post' ∧ g.Reaches b a) := by
  obtain ⟨counted, countedPost⟩ := numbering_counts wf start
  have reached := (counted.numbered a).mp (Option.isSome_of_eq_some places.pre)
  have met := (mem_search_iff_live wf).mpr reached
  have leftNodup := numbering_left_nodup wf start
  obtain ⟨pre', post', rev', places'⟩ :=
    exists_places wf ((mem_search_iff_live wf).mpr ⟨reached.1, reached.2.step edge⟩)
  refine ⟨pre', post', rev', places', ?_⟩
  have turned := turned_of_places places
  have turned' := turned_of_places places'
  have inside := countedPost.below places.post
  rcases left_earlier_or_above wf met edge with earlier | ⟨above, back⟩
  · have less := idxOf?_lt_of_sublist leftNodup earlier places'.post places.post
    exact .inl (by omega)
  · refine .inr ⟨above, ?_, ?_, back⟩ <;> rcases above.order with rfl | ⟨metFirst, leftLast⟩
    · exact (Option.some.inj (places'.pre.symm.trans places.pre)).le
    · exact (idxOf?_lt_of_sublist (numbering_met_nodup wf start) metFirst places'.pre
        places.pre).le
    · exact (Option.some.inj (places.post.symm.trans places'.post)).le
    · exact (idxOf?_lt_of_sublist leftNodup leftLast places.post places'.post).le

theorem depthFirstExact (wf : g.WellFormed) (start : NodeId) : g.DepthFirstExact start where
  visits := depthFirst_eq wf start
  entered := by rw [preorder_eq wf, depthFirst_eq wf, Forest.filterMap_entered?_visits]
  met := (preorder_eq wf start).symm
  left := (postorder_eq wf start).symm
  reversed := congrArg List.reverse (postorder_eq wf start).symm
  preorder_nodup := preorder_eq wf start ▸ numbering_met_nodup wf start
  postorder_nodup := postorder_eq wf start ▸ numbering_left_nodup wf start
  reversePostorder_nodup :=
    List.nodup_reverse.mpr (postorder_eq wf start ▸ numbering_left_nodup wf start)
  mem_preorder _ := by rw [preorder_eq wf, mem_search_iff_live wf]
  mem_postorder _ := by rw [postorder_eq wf, Forest.mem_postorder, mem_search_iff_live wf]
  mem_reversePostorder _ := by
    rw [reversePostorder, List.mem_reverse, postorder_eq wf, Forest.mem_postorder,
      mem_search_iff_live wf]
  pre := (numbering_counts wf start).1
  post := (numbering_counts wf start).2
  rev := (numbering_counts wf start).2.down
  turned := turned_of_places
  first := places_start wf
  edges := places_of_step wf

/-! ## Valid graphs -/

/-- A graph is refused for want of an entry, or for the first node that the entry does not reach. -/
theorem validate_eq_error_iff (wf : g.WellFormed) {error : GraphError} :
    g.validate = .error error ↔
      g.entry? = none ∧ error = .noEntry g.name ∨
      ∃ entry before orphan after, g.entry? = some entry ∧
        g.nodeIds = before ++ orphan :: after ∧ (∀ id ∈ before, g.Reaches entry id) ∧
        ¬g.Reaches entry orphan ∧ error = .unreachable (g.label orphan) (g.label entry) := by
  cases entered : g.entry? with
  | none => simp [validate, entry, entered, bind, Except.bind, eq_comm]
  | some entry =>
    have live := entry_live entered
    have met (id : NodeId) : (g.numbering entry).isReachable id = true ↔ g.Reaches entry id :=
      isReachable_numbering wf live
    simp only [validate, FlowGraph.entry, entered, bind, Except.bind, reduceCtorEq, false_and,
      false_or, Option.some.injEq]
    cases orphan : g.nodeIds.find? fun id => !(g.numbering entry).isReachable id with
    | none =>
      simp only [reduceCtorEq, false_iff]
      rintro ⟨_, before, id, after, rfl, split, -, missed, -⟩
      have member : id ∈ g.nodeIds := by simp [split]
      exact missed ((met id).mp (by simpa using List.find?_eq_none.mp orphan id member))
    | some id =>
      obtain ⟨missed, before, after, split, reached⟩ := List.find?_eq_some_iff_append.mp orphan
      constructor
      · intro failed
        cases failed
        refine ⟨entry, before, id, after, rfl, split, fun other member => ?_, ?_, rfl⟩
        · exact (met other).mp (by simpa using reached other member)
        · simpa [← met] using missed
      · rintro ⟨_, before', id', after', rfl, split', reached', missed', rfl⟩
        have same : id' = id := by
          have unmet : (!(g.numbering entry).isReachable id') = true := by
            rwa [Bool.not_eq_true', ← Bool.not_eq_true, met]
          have found : (g.nodeIds.find? fun id => !(g.numbering entry).isReachable id) = some id' :=
            List.find?_eq_some_iff_append.mpr ⟨unmet, before', after', split',
              fun other member => by simpa [met] using reached' other member⟩
          exact Option.some.inj (found.symm.trans orphan)
        rw [same]

/-- A search from any start meets and leaves exactly the nodes that can be reached from it, each
once, and its numbers count them: an edge leads on in reverse postorder or back to a node that
encloses its source. So a graph is accepted where its entry reaches every node, and otherwise
refused for the first node that it does not reach. -/
theorem depthFirst_numbers_reached (wf : g.WellFormed) :
    (∀ start, g.DepthFirstExact start) ∧
    (g.validate = .ok () ↔
      ∃ entry, g.entry? = some entry ∧ ∀ id ∈ g.nodeIds, g.Reaches entry id) ∧
    ∀ error, g.validate = .error error ↔
      g.entry? = none ∧ error = .noEntry g.name ∨
      ∃ entry before orphan after, g.entry? = some entry ∧
        g.nodeIds = before ++ orphan :: after ∧ (∀ id ∈ before, g.Reaches entry id) ∧
        ¬g.Reaches entry orphan ∧ error = .unreachable (g.label orphan) (g.label entry) :=
  ⟨depthFirstExact wf, validate_eq_ok_iff wf, fun _ => validate_eq_error_iff wf⟩

theorem crossing_numbers : crossing.WellFormed ∧ crossing.preorder 0 = [0, 1, 2] ∧
    crossing.reversePostorder 0 = [0, 1, 2] ∧ crossing.preorder 3 = [] ∧
    crossing.DepthFirstExact 4 ∧ crossing.validate = .error (.unreachable "D" "A") ∧
    ¬crossing.Reaches 0 4 := by
  have wf : crossing.WellFormed := by decide
  obtain ⟨exact, -, -⟩ := depthFirst_numbers_reached wf
  have met : crossing.preorder 0 = [0, 1, 2] := by
    rw [← (exact 0).met]
    decide
  refine ⟨wf, met, ?_, ?_, exact 4, by decide, ?_⟩
  · rw [← (exact 0).reversed]
    decide
  · rw [← (exact 3).met]
    decide
  · intro reached
    have member := ((exact 0).mem_preorder 4).mpr ⟨by decide, reached⟩
    simp [met] at member

end FlowGraph

end ControlFlow
