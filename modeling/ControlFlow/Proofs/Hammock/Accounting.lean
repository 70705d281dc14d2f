import ControlFlow.Proofs.Hammock.Matches

/-! The account of a reduction. A merge takes the blocks of a region out of the graph, all but its
entry. So the blocks left in the graph and those taken out so far are at every point the blocks that
there were at first, each of them once; the account is a permutation that one merge keeps. A run makes
one merge after the other, whoever looks on, and ends when no more can be made or it is told to. -/
namespace ControlFlow

open scoped List

/-- The labels of the nodes of a graph. -/
def FlowGraph.labels (g : FlowGraph) : List String := g.nodes.map Node.label

/-- The blocks of a region that a merge takes out of the graph. -/
def Region.absorbed (region : Region) : List String := region.blocks.filter (· != region.entry)

namespace Hammock

/-- The graph after some merges, each of them the next move. -/
inductive Reached (g : FlowGraph) : List Region → FlowGraph → Prop where
  | start : Reached g [] g
  | merge {found : List Region} {h k : FlowGraph} {region : Region} {merged : NodeId}
      (before : Reached g found h) (next : nextMove h = .ok (.merge region))
      (ran : h.mergeRegion region = .ok (merged, k)) : Reached g (found ++ [region]) k

/-- The account of the merges that lead from one graph to another. -/
structure Accounted (g : FlowGraph) (found : List Region) (h : FlowGraph) : Prop where
  /-- A block is live or has been taken out once, by one region. -/
  once : ∀ label ∈ g.labels,
    (found.flatMap Region.absorbed).count label = if label ∈ h.labels then 0 else 1
  /-- What has been taken out does not come back. -/
  gone : found.Pairwise fun earlier later => ∀ label ∈ earlier.absorbed, label ∉ later.blocks
  liveOld : ∀ label ∈ h.labels, label ∈ g.labels
  foundOld : ∀ region ∈ found, ∀ label ∈ region.blocks, label ∈ g.labels
  size : g.size = h.size + (found.map fun region => region.labels.length - 1).sum
  entry : h.entry?.map h.label = g.entry?.map g.label

section

variable {g h k : FlowGraph} {region : Region} {layout : Layout} {found : List Region}

theorem labels_nodup (wf : g.WellFormed) : g.labels.Nodup := wf.labelsNodup

theorem mem_labels (wf : g.WellFormed) {label : String} :
    label ∈ g.labels ↔ ∃ n ∈ g.nodeIds, g.label n = label := by
  constructor
  · intro member
    obtain ⟨n, live, rfl⟩ := List.mem_map.mp member
    exact ⟨n.id, FlowGraph.mem_nodeIds.mpr ⟨n, live, rfl⟩, wf.label_node live⟩
  · rintro ⟨id, live, rfl⟩
    obtain ⟨n, member, rfl⟩ := FlowGraph.mem_nodeIds.mp live
    exact wf.label_node member ▸ List.mem_map_of_mem member

namespace Shaped

variable (shaped : Shaped g region layout) (wf : g.WellFormed)
variable (live : ∀ id ∈ layout.members, id ∈ g.nodeIds)
include shaped wf live

theorem blocks_nodup : region.blocks.Nodup := by
  rw [shaped.blocks_eq]
  exact shaped.nodup.map_on fun a left b right => wf.label_inj (live a left) (live b right)

theorem blocks_live {label : String} (role : label ∈ region.blocks) : label ∈ g.labels := by
  rw [shaped.blocks_eq] at role
  obtain ⟨n, member, rfl⟩ := List.mem_map.mp role
  exact (mem_labels wf).mpr ⟨n, live n member, rfl⟩

theorem mem_absorbed {label : String} : label ∈ region.absorbed ↔
    ∃ n ∈ layout.members, n ≠ layout.head ∧ g.label n = label := by
  rw [Region.absorbed, shaped.blocks_eq, shaped.entry_eq, List.mem_filter, List.mem_map]
  constructor
  · rintro ⟨⟨n, member, rfl⟩, other⟩
    refine ⟨n, member, ?_, rfl⟩
    rintro rfl
    simp at other
  · rintro ⟨n, member, other, rfl⟩
    refine ⟨⟨n, member, rfl⟩, ?_⟩
    have different : g.label n ≠ g.label layout.head := fun same =>
      other (wf.label_inj (live n member) (live _ shaped.head_mem) same)
    simpa using different

/-- All blocks of a region but one are taken out. -/
theorem labels_length : region.labels.length = region.absorbed.length + 1 := by
  obtain ⟨rest, perm, labels⟩ := shaped.labels_eq wf live
  have nodup := shaped.blocks_nodup wf live
  have inside : region.entry ∈ region.blocks := by
    rw [shaped.blocks_eq, shaped.entry_eq]
    exact List.mem_map_of_mem shaped.head_mem
  rw [Region.absorbed, ← nodup.erase_eq_filter, List.length_erase_of_mem inside, shaped.blocks_eq,
    labels, List.length_map, List.length_map, perm.length_eq]
  have nonempty := List.length_pos_of_mem shaped.head_mem
  omega

/-- The blocks left by a merge and those that it takes out are the blocks that there were. -/
theorem labels_perm {merged : NodeId} {loopEdge : Option (NodeId × NodeId)}
    (done : g.Merged layout.head layout.members loopEdge merged k) :
    (k.labels ++ region.absorbed).Perm g.labels := by
  have headLive := live _ shaped.head_mem
  refine (List.perm_ext_iff_of_nodup ?_ (labels_nodup wf)).mpr fun label => ?_
  · refine List.nodup_append.mpr
      ⟨labels_nodup done.wf, (shaped.blocks_nodup wf live).filter _, ?_⟩
    rintro label stays _ taken rfl
    obtain ⟨m, member, other, rfl⟩ := (shaped.mem_absorbed wf live).mp taken
    obtain ⟨n, there, same⟩ := (mem_labels done.wf).mp stays
    rcases done.nodeIds.mp there with ⟨old, outside⟩ | rfl
    · rw [done.labelOutside old outside] at same
      exact outside (wf.label_inj old (live m member) same ▸ member)
    · rw [done.labelMerged] at same
      exact other (wf.label_inj headLive (live m member) same).symm
  · rw [List.mem_append, mem_labels done.wf, mem_labels wf, shaped.mem_absorbed wf live]
    constructor
    · rintro (⟨n, there, rfl⟩ | ⟨m, member, -, rfl⟩)
      · rcases done.nodeIds.mp there with ⟨old, outside⟩ | rfl
        · exact ⟨n, old, (done.labelOutside old outside).symm⟩
        · exact ⟨layout.head, headLive, done.labelMerged.symm⟩
      · exact ⟨m, live m member, rfl⟩
    · rintro ⟨n, old, rfl⟩
      by_cases outside : n ∉ layout.members
      · exact .inl ⟨n, done.nodeIds.mpr (.inl ⟨old, outside⟩), done.labelOutside old outside⟩
      · by_cases same : n = layout.head
        · exact .inl ⟨merged, done.nodeIds.mpr (.inr rfl), same ▸ done.labelMerged⟩
        · exact .inr ⟨n, not_not.mp outside, same, rfl⟩

end Shaped

/-! ## One merge -/

/-- What is kept by every merge, and enough to make the next one. -/
structure Balanced (g : FlowGraph) (found : List Region) (h : FlowGraph) : Prop where
  wf : h.WellFormed
  entered : ∃ entry, h.entry? = some entry ∧ g.entry?.map g.label = some (h.label entry)
  perm : (h.labels ++ found.flatMap Region.absorbed).Perm g.labels
  gone : found.Pairwise fun earlier later => ∀ label ∈ earlier.absorbed, label ∉ later.blocks
  foundOld : ∀ region ∈ found, ∀ label ∈ region.blocks, label ∈ g.labels
  sizes : ∀ region ∈ found,
    region.labels.length = region.absorbed.length + 1 ∧ 0 < region.absorbed.length

namespace Balanced

theorem start (wf : g.WellFormed) {entry : NodeId} (entered : g.entry? = some entry) :
    Balanced g [] g where
  wf := wf
  entered := ⟨entry, entered, by rw [entered, Option.map_some]⟩
  perm := by rw [List.flatMap_nil, List.append_nil]
  gone := List.Pairwise.nil
  foundOld := nofun
  sizes := nofun

variable (balanced : Balanced g found h) (wf : g.WellFormed)
include balanced wf

theorem nodup : (h.labels ++ found.flatMap Region.absorbed).Nodup :=
  balanced.perm.nodup_iff.mpr (labels_nodup wf)

/-- The next move is to merge only if the merge can be made, and it keeps the account. -/
theorem merge (next : nextMove h = .ok (.merge region)) :
    ∃ merged k, h.mergeRegion region = .ok (merged, k) ∧ Balanced g (found ++ [region]) k := by
  obtain ⟨entry, entered, named⟩ := balanced.entered
  obtain ⟨layout, head, fits⟩ := matched_of_firstMatch (firstMatch?_of_nextMove entered next)
  obtain ⟨live, entryInside⟩ := fits.live balanced.wf entered head
  have shaped := fits.shaped
  obtain ⟨merged, k, ran, done⟩ := shaped.mergeRegion_merged balanced.wf live
  have perm := shaped.labels_perm balanced.wf live done
  have inside {label : String} (role : label ∈ region.blocks) : label ∈ h.labels :=
    shaped.blocks_live balanced.wf live role
  refine ⟨merged, k, ran, done.wf, ?_, ?_, ?_, ?_, ?_⟩
  · refine ⟨_, done.entry entered, named.trans (congrArg some ?_)⟩
    split
    · next member => rw [done.labelMerged, entryInside member]
    · next outside => exact (done.labelOutside (FlowGraph.entry_live entered) outside).symm
  · rw [List.flatMap_append, List.flatMap_singleton]
    calc k.labels ++ (found.flatMap Region.absorbed ++ region.absorbed)
      _ ~ k.labels ++ (region.absorbed ++ found.flatMap Region.absorbed) :=
        List.perm_append_comm.append_left _
      _ = k.labels ++ region.absorbed ++ found.flatMap Region.absorbed :=
        (List.append_assoc _ _ _).symm
      _ ~ h.labels ++ found.flatMap Region.absorbed := perm.append_right _
      _ ~ g.labels := balanced.perm
  · refine List.pairwise_append.mpr ⟨balanced.gone, List.pairwise_singleton _ _, ?_⟩
    intro earlier before later last label taken role
    obtain rfl := List.mem_singleton.mp last
    exact List.disjoint_of_nodup_append (balanced.nodup wf) (inside role)
      (List.mem_flatMap.mpr ⟨earlier, before, taken⟩)
  · intro other member label role
    rcases List.mem_append.mp member with before | last
    · exact balanced.foundOld other before label role
    · obtain rfl := List.mem_singleton.mp last
      exact balanced.perm.subset (List.mem_append_left _ (inside role))
  · intro other member
    rcases List.mem_append.mp member with before | last
    · exact balanced.sizes other before
    · obtain rfl := List.mem_singleton.mp last
      refine ⟨shaped.labels_length balanced.wf live, ?_⟩
      obtain ⟨b, member, different, -⟩ := shaped.exists_single_pred
      exact List.length_pos_of_mem
        ((shaped.mem_absorbed balanced.wf live).mpr ⟨b, member, different, rfl⟩)

omit wf in
theorem size_eq : g.size = h.size + (found.map fun region => region.labels.length - 1).sum := by
  have total := balanced.perm.length_eq
  rw [List.length_append, List.length_flatMap] at total
  have sizes : found.map (fun region => region.labels.length - 1) =
      found.map fun region => region.absorbed.length :=
    List.map_congr_left fun region member => by rw [(balanced.sizes region member).1]; rfl
  rw [sizes]
  simpa [FlowGraph.labels, FlowGraph.size] using total.symm

omit wf in
/-- Every merge takes a block out, and the entry stays. -/
theorem length_lt : found.length < g.size := by
  obtain ⟨entry, entered, -⟩ := balanced.entered
  have left := FlowGraph.size_pos_of_entry entered
  have each : found.length ≤ (found.map fun region => region.labels.length - 1).sum := by
    have least := List.length_le_sum_of_one_le (found.map fun region => region.labels.length - 1)
    rw [List.length_map] at least
    refine least fun size member => ?_
    obtain ⟨region, listed, rfl⟩ := List.mem_map.mp member
    obtain ⟨length, positive⟩ := balanced.sizes region listed
    omega
  have size := balanced.size_eq
  omega

theorem accounted : Accounted g found h where
  once label old := by
    -- The label is counted once in the input, and so once among what is left and what is taken out.
    have total := balanced.perm.count_eq label
    rw [List.count_append, (labels_nodup wf).count, if_pos old,
      (labels_nodup balanced.wf).count] at total
    split at total
    · next live =>
      rw [if_pos live]
      omega
    · next dead =>
      rw [if_neg dead]
      omega
  gone := balanced.gone
  liveOld label live := balanced.perm.subset (List.mem_append_left _ live)
  foundOld := balanced.foundOld
  size := balanced.size_eq
  entry := by
    obtain ⟨entry, entered, named⟩ := balanced.entered
    rw [entered, named, Option.map_some]

end Balanced

theorem Reached.balanced (reached : Reached g found h) (wf : g.WellFormed) {entry : NodeId}
    (entered : g.entry? = some entry) : Balanced g found h := by
  induction reached with
  | start => exact .start wf entered
  | merge _ next ran ih =>
    obtain ⟨merged, k, ran', balanced⟩ := ih.merge wf next
    rw [ran] at ran'
    cases ran'
    exact balanced

/-- The merges after the first ones are those of the graph that these lead to. -/
theorem Reached.split (reached : Reached g found h) (count : Nat) (few : count ≤ found.length) :
    ∃ between, Reached g (found.take count) between ∧ Reached between (found.drop count) h := by
  induction reached with
  | start => exact ⟨g, by rw [List.take_nil]; exact .start, by rw [List.drop_nil]; exact .start⟩
  | @merge found h k region merged before next ran ih =>
    by_cases all : count ≤ found.length
    · obtain ⟨between, first, second⟩ := ih all
      refine ⟨between, ?_, ?_⟩
      · rw [List.take_append_of_le_length all]
        exact first
      · rw [List.drop_append_of_le_length all]
        exact .merge second next ran
    · have whole : count = (found ++ [region]).length := by
        rw [List.length_append, List.length_singleton] at few ⊢
        omega
      refine ⟨k, ?_, ?_⟩
      · rw [whole, List.take_length]
        exact .merge before next ran
      · rw [whole, List.drop_length]
        exact .start

/-- The way to a graph passes one for each number of merges. -/
theorem Reached.take (reached : Reached g found h) (count : Nat) (few : count ≤ found.length) :
    ∃ between, Reached g (found.take count) between := by
  obtain ⟨between, first, -⟩ := reached.split count few
  exact ⟨between, first⟩

/-- Each region of a reduction is the next move of the graph that the merges before it lead to. -/
theorem Reached.exists_nextMove (reached : Reached g found h) {count : Nat}
    (inside : count < found.length) :
    ∃ between, Reached g (found.take count) between ∧
      nextMove between = .ok (.merge found[count]) := by
  induction reached with
  | start => cases inside
  | @merge found h k region merged before next ran ih =>
    by_cases earlier : count < found.length
    · obtain ⟨between, way, next⟩ := ih earlier
      refine ⟨between, ?_, ?_⟩
      · rwa [List.take_append_of_le_length earlier.le]
      · rwa [List.getElem_append_left earlier]
    · obtain rfl : count = found.length := by
        rw [List.length_append, List.length_singleton] at inside
        omega
      refine ⟨h, ?_, ?_⟩
      · rwa [List.take_left]
      · simpa using next

end

/-! ## Whole runs -/

/-- Why a run is over: the graph is one node, no shape matches, or the observer has stopped it. -/
inductive Ended (h : FlowGraph) : Option Remainder → Prop where
  | complete (single : h.size = 1) : Ended h none
  | stuck (next : nextMove h = .ok .stuck) : Ended h (some ⟨h.size, false⟩)
  | stopped : Ended h (some ⟨h.size, true⟩)

section

variable {σ : Type} {g h k : FlowGraph} {region : Region} {merged : NodeId} {found : List Region}

/-- A program of an observer, from a state of what it remembers. -/
def watch {α : Type} (program : StateM σ α) (s : σ) : α × σ := Id.run (StateT.run program s)

theorem watch_bind {α β : Type} (program : StateM σ α) (rest : α → StateM σ β) (s : σ) :
    watch (program >>= rest) s = watch (rest (watch program s).1) (watch program s).2 := rfl

/-- An observer is asked before a merge and after it, and can stop the run at both points. -/
theorem watch_merge (observer : Observer (StateM σ)) (bound : Nat) (s : σ)
    (next : nextMove h = .ok (.merge region)) (ran : h.mergeRegion region = .ok (merged, k)) :
    watch (runWithin observer (bound + 1) h found) s =
      match watch (observer.before h region) s with
      | (false, s') => (ended found h true, s')
      | (true, s') =>
        match watch (observer.after k region) s' with
        | (false, s'') => (ended (found ++ [region]) k true, s'')
        | (true, s'') => watch (runWithin observer bound k (found ++ [region])) s'' := by
  rw [runWithin, next]
  simp only [ran, watch_bind]
  rcases watch (observer.before h region) s with ⟨_ | _, s'⟩
  · rfl
  · simp only [if_true, watch_bind]
    rcases watch (observer.after k region) s' with ⟨_ | _, s''⟩
    · rfl
    · rfl

/-- A run goes on with next moves until it has to end or is stopped. -/
theorem runWithin_reached {entry : NodeId} (wf : g.WellFormed) (entered : g.entry? = some entry)
    (observer : Observer (StateM σ)) (bound : Nat) (s : σ) (reached : Reached g found h)
    (enough : g.size ≤ found.length + bound) :
    ∃ analysis k s', watch (runWithin observer bound h found) s = (.ok (analysis, k), s') ∧
      Reached g analysis.regions k ∧ Ended k analysis.remainder := by
  induction bound generalizing h found s with
  -- Each merge has taken a block out, so there are not as many of them as blocks.
  | zero => exact absurd (reached.balanced wf entered).length_lt (Nat.not_lt.mpr enough)
  | succ bound ih =>
    have balanced := reached.balanced wf entered
    obtain ⟨entry', entered', -⟩ := balanced.entered
    rcases nextMove_eq entered' with ⟨small, next⟩ | ⟨-, next⟩ | ⟨region, next, -⟩
    · have single : h.size = 1 := Nat.le_antisymm small (FlowGraph.size_pos_of_entry entered')
      refine ⟨⟨found, none⟩, h, s, ?_, reached, .complete single⟩
      rw [runWithin, next]
      rfl
    · refine ⟨⟨found, some ⟨h.size, false⟩⟩, h, s, ?_, reached, .stuck next⟩
      rw [runWithin, next]
      rfl
    · obtain ⟨merged, k, ran, -⟩ := balanced.merge wf next
      have further := reached.merge next ran
      rw [watch_merge observer bound s next ran]
      rcases watch (observer.before h region) s with ⟨_ | _, s'⟩
      · exact ⟨⟨found, some ⟨h.size, true⟩⟩, h, s', rfl, reached, .stopped⟩
      · dsimp only
        rcases watch (observer.after k region) s' with ⟨_ | _, s''⟩
        · exact ⟨⟨found ++ [region], some ⟨k.size, true⟩⟩, k, s'', rfl, further, .stopped⟩
        · refine ih s'' further ?_
          rw [List.length_append, List.length_singleton]
          omega

end

/-- A reduction ends after fewer merges than there are blocks, whoever looks on. At every point on
the way the account is right: a block is live or has been taken out once, it does not come back, no
block is new, and the entry keeps its label. -/
theorem reduceObserved_accounted {σ : Type} {g : FlowGraph} (wf : g.WellFormed)
    (valid : g.validate = .ok ()) (observer : Observer (StateM σ)) (s : σ) :
    ∃ analysis h s', watch (reduceObserved observer g) s = (.ok (analysis, h), s') ∧
      analysis.regions.length ≤ g.size - 1 ∧ Reached g analysis.regions h ∧
      Ended h analysis.remainder ∧
      ∀ count ≤ analysis.regions.length, ∃ between,
        Reached g (analysis.regions.take count) between ∧
          Accounted g (analysis.regions.take count) between := by
  obtain ⟨entry, entered, -⟩ := (FlowGraph.validate_eq_ok_iff wf).mp valid
  have enough : g.size ≤ ([] : List Region).length + g.size := by simp
  obtain ⟨analysis, h, s', ran, reached, finish⟩ :=
    runWithin_reached wf entered observer g.size s .start enough
  have few := (reached.balanced wf entered).length_lt
  refine ⟨analysis, h, s', ?_, Nat.le_sub_one_of_lt few, reached, finish, fun count inside => ?_⟩
  · rw [reduceObserved, valid]
    exact ran
  · obtain ⟨between, way⟩ := reached.take count inside
    exact ⟨between, way, (way.balanced wf entered).accounted wf⟩

/-- Lets a run make as many merges as it remembers. -/
def allowing : Observer (StateM Nat) where
  before _ _ := do return (← get) != 0
  after _ _ := do
    modify (· - 1)
    return true

theorem repeating_accounted : repeating.WellFormed ∧ repeating.validate = .ok () ∧
    ∃ analysis h s', watch (reduceObserved allowing repeating) 1 = (.ok (analysis, h), s') ∧
      analysis.regions.length ≤ repeating.size - 1 ∧ Reached repeating analysis.regions h ∧
      Ended h analysis.remainder ∧
      ∀ count ≤ analysis.regions.length, ∃ between,
        Reached repeating (analysis.regions.take count) between ∧
          Accounted repeating (analysis.regions.take count) between := by
  have wf : repeating.WellFormed := by decide
  have valid : repeating.validate = .ok () := by rfl
  exact ⟨wf, valid, reduceObserved_accounted wf valid allowing 1⟩

/-- The loop has been merged, and the merge that would have followed is not made. -/
example : (watch (reduceObserved allowing repeating) 1).1.map (fun (analysis, h) =>
      (analysis, h.labels)) =
    .ok (⟨[.preLoop "B" "C" "D"], some ⟨2, true⟩⟩, ["A", "B"]) := by
  rfl

end Hammock

end ControlFlow
