import ControlFlow.Proofs.Dot.Documents
import ControlFlow.Proofs.Graph.Construction

/-! The graph that a document describes. A document that lists each node and each edge once, and the
ends of its edges among its nodes, describes a graph unless it marks two entries; the graph lists what
the document lists, in an order of its own. -/
namespace ControlFlow.Dot

open FlowGraph

/-- The labels at the two ends of an edge. -/
def labelPair (g : FlowGraph) (e : Edge) : String × String := (g.label e.source, g.label e.target)

/-- What a document knows of a node and of an edge. -/
def nodeEntry (n : Node) : String × AttrMap := (n.label, n.attrs)

def edgeEntry (g : FlowGraph) (e : Edge) : (String × String) × AttrMap := (labelPair g e, e.attrs)

theorem map_fst_nodeEntry (nodes : List Node) :
    (nodes.map nodeEntry).map Prod.fst = nodes.map Node.label := by
  rw [List.map_map]
  rfl

theorem map_fst_edgeEntry (g : FlowGraph) (edges : List Edge) :
    (edges.map (edgeEntry g)).map Prod.fst = edges.map (labelPair g) := by
  rw [List.map_map]
  rfl

namespace Document

/-- Entries of which at most one marks the entry of a graph. -/
def OneEntry (entries : List (String × AttrMap)) : Prop :=
  entries.Pairwise fun a b => ¬(a.2.marksEntry = true ∧ b.2.marksEntry = true)

theorem oneEntry_of_perm {entries others : List (String × AttrMap)} (perm : entries.Perm others) :
    OneEntry entries ↔ OneEntry others :=
  perm.pairwise_iff fun apart both => apart both.symm

/-- A node with a new label can be added, unless it would be a second entry. -/
theorem outcome_addNode {k : FlowGraph} {label : String} (fresh : k.find? label = none)
    (attrs : AttrMap) :
    Outcome (fun result => result = (k.nextNode, k.insertNode label attrs))
      (fun error => (∃ n ∈ k.nodes, n.attrs.marksEntry = true ∧ attrs.marksEntry = true) ∧
        ∃ entry, error = .secondEntry label entry) (k.addNode label attrs) := by
  unfold addNode
  rw [fresh]
  cases marked : attrs.marksEntry with
  | false => exact rfl
  | true =>
    cases entered : k.entry? with
    | none => exact rfl
    | some entry =>
      obtain ⟨n, found, -⟩ := Option.map_eq_some_iff.mp entered
      have isEntry : n.isEntry = true := List.find?_some found
      exact ⟨⟨n, List.mem_of_find?_eq_some found, isEntry, rfl⟩, _, rfl⟩

/-- Nodes with new labels can all be added, if no two of them mark the entry. -/
theorem outcome_addNodes (entries : List (String × AttrMap)) (k : FlowGraph)
    (nodup : ((k.nodes.map nodeEntry ++ entries).map Prod.fst).Nodup)
    (single : OneEntry (k.nodes.map nodeEntry)) :
    Outcome (fun h => OneEntry (k.nodes.map nodeEntry ++ entries) ∧
        (h.nodes.map nodeEntry).Perm (k.nodes.map nodeEntry ++ entries) ∧ h.edges = k.edges ∧
        h.name = k.name ∧ h.attrs = k.attrs)
      (fun error => ¬OneEntry (k.nodes.map nodeEntry ++ entries) ∧
        ∃ label entry, error = .secondEntry label entry)
      (entries.foldlM (fun g (label, attrs) => do pure (← g.addNode label attrs).2) k) := by
  induction entries generalizing k with
  | nil => exact ⟨by simpa using single, by simp, rfl, rfl, rfl⟩
  | cons entry entries ih =>
    obtain ⟨label, attrs⟩ := entry
    have fresh : k.find? label = none := by
      refine find?_eq_none_iff.mpr fun n member same => ?_
      rw [List.map_append] at nodup
      refine List.disjoint_of_nodup_append nodup (a := label) ?_ (by simp)
      exact List.mem_map.mpr ⟨nodeEntry n, List.mem_map_of_mem member, same⟩
    have step := outcome_addNode fresh attrs
    cases added : k.addNode label attrs with
    | error error =>
      obtain ⟨⟨n, member, marked, marked'⟩, entry, rfl⟩ := step.of_error added
      have failed : ¬OneEntry (k.nodes.map nodeEntry ++ (label, attrs) :: entries) := fun apart =>
        (List.pairwise_append.mp apart).2.2 _ (List.mem_map_of_mem member) _
          List.mem_cons_self ⟨marked, marked'⟩
      simp only [List.foldlM_cons, added]
      exact And.intro failed ⟨label, entry, rfl⟩
    | ok result =>
      obtain rfl := step.of_ok added
      obtain ⟨-, unentered, -⟩ := addNode_eq_ok_iff.mp added
      have listed : ((k.insertNode label attrs).nodes.map nodeEntry).Perm
          (k.nodes.map nodeEntry ++ [(label, attrs)]) :=
        ((insertNode_nodes label attrs).map nodeEntry).trans (List.perm_append_singleton _ _).symm
      have inserted : ((k.insertNode label attrs).nodes.map nodeEntry ++ entries).Perm
          (k.nodes.map nodeEntry ++ (label, attrs) :: entries) := by
        simpa using listed.append_right entries
      have single' : OneEntry ((k.insertNode label attrs).nodes.map nodeEntry) := by
        refine (oneEntry_of_perm listed).mpr (List.pairwise_append.mpr ⟨single, by simp, ?_⟩)
        intro other member here last both
        obtain ⟨n, listed, rfl⟩ := List.mem_map.mp member
        rw [List.mem_singleton.mp last] at both
        exact absurd both.1 (Bool.eq_false_iff.mp
          (entry?_eq_none_iff.mp (unentered both.2) n listed))
      simp only [List.foldlM_cons, added, ok_bind]
      refine (ih _ ((inserted.map _).nodup_iff.mpr nodup) single').mono ?_ ?_
      · rintro h ⟨apart, perm, rest⟩
        exact ⟨(oneEntry_of_perm inserted).mp apart, perm.trans inserted, rest⟩
      · rintro error ⟨apart, second⟩
        exact ⟨fun single => apart ((oneEntry_of_perm inserted).mpr single), second⟩

/-- Edges between nodes that are there, no two of them alike, can all be added. -/
theorem addEdges_ok (entries : List ((String × String) × AttrMap)) {k : FlowGraph}
    (wf : k.WellFormed)
    (known : ∀ entry ∈ entries, entry.1.1 ∈ k.nodes.map Node.label ∧
      entry.1.2 ∈ k.nodes.map Node.label)
    (nodup : ((k.edges.map (edgeEntry k) ++ entries).map Prod.fst).Nodup) :
    ∃ h, entries.foldlM (fun g ((source, target), attrs) =>
        match g.find? source, g.find? target with
        | some source, some target => do pure (← g.addEdge source target attrs).2
        | _, _ => pure g) k = Except.ok (ε := GraphError) h ∧
      (h.edges.map (edgeEntry h)).Perm (k.edges.map (edgeEntry k) ++ entries) ∧
      h.nodes = k.nodes ∧ h.name = k.name ∧ h.attrs = k.attrs := by
  induction entries generalizing k with
  | nil => exact ⟨k, rfl, by simp, rfl, rfl, rfl⟩
  | cons entry entries ih =>
    obtain ⟨⟨sourceLabel, targetLabel⟩, attrs⟩ := entry
    obtain ⟨⟨sourceKnown, targetKnown⟩, others⟩ := List.forall_mem_cons.mp known
    obtain ⟨source, sourceMember, rfl⟩ := List.mem_map.mp sourceKnown
    obtain ⟨target, targetMember, rfl⟩ := List.mem_map.mp targetKnown
    have sourceFound := wf.find?_eq_some_iff.mpr ⟨source, sourceMember, rfl, rfl⟩
    have targetFound := wf.find?_eq_some_iff.mpr ⟨target, targetMember, rfl, rfl⟩
    have free : target.id ∉ k.succs source.id := by
      intro taken
      obtain ⟨e, member, sourceSame, targetSame⟩ := mem_succs.mp taken
      rw [List.map_append] at nodup
      refine List.disjoint_of_nodup_append nodup (a := (source.label, target.label)) ?_ (by simp)
      refine List.mem_map.mpr ⟨edgeEntry k e, List.mem_map_of_mem member, ?_⟩
      rw [edgeEntry, labelPair, sourceSame, targetSame, wf.label_node sourceMember, wf.label_node targetMember]
    have sourceLive := mem_nodeIds.mpr ⟨source, sourceMember, rfl⟩
    have targetLive := mem_nodeIds.mpr ⟨target, targetMember, rfl⟩
    have added : k.addEdge source.id target.id attrs =
        .ok (k.nextEdge, k.insertEdge ⟨source.id, target.id, attrs⟩) :=
      addEdge_eq_ok_iff.mpr ⟨sourceLive, targetLive, free, rfl⟩
    have inserted : ((k.insertEdge ⟨source.id, target.id, attrs⟩).edges.map (edgeEntry k) ++
        entries).Perm (k.edges.map (edgeEntry k) ++
          ((source.label, target.label), attrs) :: entries) := by
      refine (((insertEdge_edges _).map (edgeEntry k)).append_right entries).trans ?_
      rw [List.map_cons, edgeEntry, labelPair, wf.label_node sourceMember, wf.label_node targetMember]
      exact List.perm_middle.symm
    obtain ⟨h, ran, perm, nodes, name, own⟩ := ih (wf.insertEdge sourceLive targetLive free) others
      ((inserted.map _).nodup_iff.mpr nodup)
    refine ⟨h, ?_, perm.trans inserted, nodes, name, own⟩
    simp only [List.foldlM_cons, sourceFound, targetFound, added, ok_bind]
    exact ran

/-- A document that lists nothing twice describes a graph, unless it marks two entries. -/
theorem outcome_toGraph (doc : Document) (labelsNodup : (doc.nodes.map Prod.fst).Nodup)
    (pairsNodup : (doc.edges.map Prod.fst).Nodup)
    (known : ∀ pair ∈ doc.edges.map Prod.fst, pair.1 ∈ doc.nodes.map Prod.fst ∧
      pair.2 ∈ doc.nodes.map Prod.fst) :
    Outcome (fun h => OneEntry doc.nodes ∧ (h.nodes.map nodeEntry).Perm doc.nodes ∧
        (h.edges.map (edgeEntry h)).Perm doc.edges ∧ h.name = doc.name ∧ h.attrs = doc.graphAttrs)
      (fun error => ¬OneEntry doc.nodes ∧ ∃ label entry, error = .secondEntry label entry)
      doc.toGraph := by
  have nodes := outcome_addNodes doc.nodes { FlowGraph.empty doc.name with attrs := doc.graphAttrs }
    labelsNodup .nil
  cases added : doc.nodes.foldlM (fun g (label, attrs) => do pure (← g.addNode label attrs).2)
      { FlowGraph.empty doc.name with attrs := doc.graphAttrs } with
  | error error =>
    have failed : doc.toGraph = .error error := by
      rw [toGraph]
      exact congrArg (· >>= _) added
    rw [failed]
    exact nodes.of_error added
  | ok k =>
    obtain ⟨single, nodePerm, noEdges, name, attrs⟩ := nodes.of_ok added
    replace noEdges : k.edges = [] := noEdges
    replace nodePerm : (k.nodes.map nodeEntry).Perm doc.nodes := nodePerm
    -- Every node is there before the first edge is added.
    have built : k.WellFormed := foldlM_keeps (P := WellFormed) (fun {g h} entry wf step => by
      obtain ⟨result, added, same⟩ := bind_eq_ok_iff.mp step
      cases same
      exact wf.addNode added) (keptByAdding_wellFormed.bare doc.name doc.graphAttrs) added
    have listed : ∀ entry ∈ doc.edges, entry.1.1 ∈ k.nodes.map Node.label ∧
        entry.1.2 ∈ k.nodes.map Node.label := by
      have labels := nodePerm.map Prod.fst
      intro entry member
      rw [← map_fst_nodeEntry, labels.mem_iff, labels.mem_iff]
      exact known entry.1 (List.mem_map_of_mem member)
    obtain ⟨h, addedEdges, edgePerm, sameNodes, name', attrs'⟩ := addEdges_ok doc.edges built listed
      (by simpa [noEdges] using pairsNodup)
    rw [noEdges, List.map_nil, List.nil_append] at edgePerm
    have ran : doc.toGraph = .ok h := by
      rw [toGraph]
      exact bind_eq_ok_iff.mpr ⟨k, added, addedEdges⟩
    rw [ran]
    exact ⟨single, sameNodes ▸ nodePerm, edgePerm, name'.trans name, attrs'.trans attrs⟩

theorem labels_of_mem_pairs {statement : Statement} {pair : String × String}
    (mentioned : pair ∈ statement.pairs) :
    pair.1 ∈ statement.labels ∧ pair.2 ∈ statement.labels := by
  cases statement with
  | chain line first others entries =>
    obtain ⟨source, target⟩ := List.of_mem_zip mentioned
    exact ⟨source, List.mem_cons_of_mem first target⟩
  | _ => cases mentioned

/-- What a document knows of statements describes a graph, unless it marks two entries. -/
theorem Records.outcome_toGraph {strict : Bool} {name : String} {statements : List Statement}
    {doc : Document} (records : Records strict name statements doc) :
    Outcome (fun h => OneEntry doc.nodes ∧ (h.nodes.map nodeEntry).Perm doc.nodes ∧
        (h.edges.map (edgeEntry h)).Perm doc.edges ∧ h.name = doc.name ∧ h.attrs = doc.graphAttrs)
      (fun error => ¬OneEntry doc.nodes ∧ ∃ label entry, error = .secondEntry label entry)
      doc.toGraph := by
  refine doc.outcome_toGraph records.labelsNodup records.pairsNodup fun pair member => ?_
  have known {label : String} (mentioned : label ∈ statements.flatMap Statement.labels) :
      label ∈ doc.nodes.map Prod.fst := by
    by_contra absent
    exact (records.labels label).mpr mentioned (lookup_eq_none_iff.mpr absent)
  have mentioned : pair ∈ statements.flatMap Statement.pairs :=
    (records.pairs pair).mp fun absent => lookup_eq_none_iff.mp absent member
  obtain ⟨statement, listed, here⟩ := List.mem_flatMap.mp mentioned
  obtain ⟨source, target⟩ := labels_of_mem_pairs here
  exact ⟨known (List.mem_flatMap.mpr ⟨statement, listed, source⟩),
    known (List.mem_flatMap.mpr ⟨statement, listed, target⟩)⟩

variable {h : FlowGraph} {doc : Document}

theorem lookup_of_mem_nodes (nodup : (doc.nodes.map Prod.fst).Nodup)
    (listed : (h.nodes.map nodeEntry).Perm doc.nodes) {n : Node} (member : n ∈ h.nodes) :
    doc.nodes.lookup n.label = some n.attrs :=
  (AttrMap.lookup_eq_some_iff nodup).mpr (listed.subset (List.mem_map_of_mem member))

theorem lookup_of_mem_edges (nodup : (doc.edges.map Prod.fst).Nodup)
    (listed : (h.edges.map (edgeEntry h)).Perm doc.edges) {e : Edge} (member : e ∈ h.edges) :
    doc.edges.lookup (labelPair h e) = some e.attrs :=
  (AttrMap.lookup_eq_some_iff nodup).mpr (listed.subset (List.mem_map_of_mem member))

end Document

end ControlFlow.Dot
