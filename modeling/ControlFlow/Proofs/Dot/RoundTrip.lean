import ControlFlow.Proofs.Dot.DescribedGraph
import ControlFlow.Proofs.Dot.Parsing
import ControlFlow.Proofs.Reachable

/-! A written graph is read back. Its text names each node and each edge once and leaves nothing to
defaults, so the document that is read lists them as the graph does; nodes and edges that are put
into a graph in its own order come to stand as they stood. -/
namespace ControlFlow.Dot

open FlowGraph

variable {g h : FlowGraph}

/-! ## The document of a text -/

namespace Document

variable {doc : Document}

/-- The document that describes a graph as it is. -/
def ofGraph (g : FlowGraph) : Document :=
  { start false g.name with
    graphAttrs := g.attrs
    nodes := g.nodes.map nodeEntry
    edges := g.edges.map (edgeEntry g) }

/-! ## One kind of line after the other -/

theorem foldlM_attrs (entries : List (String × String)) :
    (entries.map fun (key, value) => Item.attr key value).foldlM
        (fun doc item => run doc item.statement) doc =
      .ok { doc with graphAttrs := doc.graphAttrs.insertAll entries } := by
  induction entries generalizing doc with
  | nil => rfl
  | cons entry entries ih =>
    rw [List.map_cons, List.foldlM_cons, Item.statement_attr]
    exact ih

theorem foldlM_nodes {nodes : List Node} (plain : doc.nodeDefaults = .empty)
    (nodup : (doc.nodes.map Prod.fst ++ nodes.map Node.label).Nodup) :
    (nodes.map fun n => Item.node n.label n.attrs).foldlM
        (fun doc item => run doc item.statement) doc =
      .ok { doc with nodes := doc.nodes ++ nodes.map nodeEntry } := by
  induction nodes generalizing doc with
  | nil => simp [pure, Except.pure]
  | cons n nodes ih =>
    -- Its line is the first to name the node, so the node is put behind all others.
    have fresh : n.label ∉ doc.nodes.map Prod.fst := fun member =>
      (List.disjoint_of_nodup_append nodup) member (by simp)
    have first : run doc (Item.node n.label n.attrs).statement =
        .ok { doc with nodes := doc.nodes ++ [nodeEntry n] } := by
      have absent : (doc.nodes.lookup n.label).isSome = false := by
        rw [lookup_eq_none_iff.mpr fresh]
        rfl
      have touched : doc.touch n.label =
          { doc with nodes := doc.nodes ++ [(n.label, .empty)] } := by
        rw [touch, absent, plain]
        rfl
      have set : AttrMap.empty.insertAll n.attrs.entries = n.attrs := n.attrs.ofList_entries
      have updated : update n.label (·.insertAll n.attrs.entries)
          (doc.nodes ++ [(n.label, AttrMap.empty)]) = doc.nodes ++ [nodeEntry n] := by
        have old := update_of_not_mem (·.insertAll n.attrs.entries) fresh
        rw [update] at old ⊢
        rw [List.map_append, old]
        simp [set, nodeEntry]
      rw [Item.statement_node, run, touched]
      simp only [updated]
    rw [List.map_cons, List.foldlM_cons, first, ok_bind, ih]
    · simp
    · exact plain
    · simpa [nodeEntry] using nodup

theorem foldlM_edges {edges : List Edge} (plain : doc.edgeDefaults = .empty)
    (known : ∀ e ∈ edges, g.label e.source ∈ doc.nodes.map Prod.fst ∧
      g.label e.target ∈ doc.nodes.map Prod.fst)
    (nodup : (doc.edges.map Prod.fst ++
      edges.map fun e => (g.label e.source, g.label e.target)).Nodup) :
    (edges.map fun e => Item.edge (g.label e.source) (g.label e.target) e.attrs).foldlM
        (fun doc item => run doc item.statement) doc =
      .ok { doc with edges := doc.edges ++ edges.map (edgeEntry g) } := by
  induction edges generalizing doc with
  | nil => simp [pure, Except.pure]
  | cons e edges ih =>
    obtain ⟨here, others⟩ := List.forall_mem_cons.mp known
    have fresh : (g.label e.source, g.label e.target) ∉ doc.edges.map Prod.fst := fun member =>
      (List.disjoint_of_nodup_append nodup) member (by simp)
    have touched {label : String} (known : label ∈ doc.nodes.map Prod.fst) :
        doc.touch label = doc := by
      have present : (doc.nodes.lookup label).isSome = true := by
        rw [Option.isSome_iff_ne_none]
        exact fun none => lookup_eq_none_iff.mp none known
      rw [touch, if_pos present]
    have first : run doc (Item.edge (g.label e.source) (g.label e.target) e.attrs).statement =
        .ok { doc with edges := doc.edges ++ [edgeEntry g e] } := by
      have set : AttrMap.empty.insertAll e.attrs.entries = e.attrs := e.attrs.ofList_entries
      simp only [Item.statement_edge, run, List.zip_cons_cons, List.zip_nil_right, List.foldl_cons,
        List.foldl_nil, touched here.1, touched here.2, List.foldlM_cons, List.foldlM_nil, addEdge,
        lookup_eq_none_iff.mpr fresh, plain, set]
      rfl
    rw [List.map_cons, List.foldlM_cons, first, ok_bind, ih]
    · simp
    · exact plain
    · exact others
    · simpa [edgeEntry, labelPair] using nodup

theorem label_mem (wf : g.WellFormed) {id : NodeId} (live : id ∈ g.nodeIds) :
    g.label id ∈ g.nodes.map Node.label := by
  obtain ⟨n, member, rfl⟩ := mem_nodeIds.mp live
  rw [wf.label_node member]
  exact List.mem_map_of_mem member

theorem labelPairs_nodup (wf : g.WellFormed) :
    (g.edges.map fun e => (g.label e.source, g.label e.target)).Nodup := by
  refine List.Nodup.map_on (fun e left f right same => ?_) (wf.endsNodup.of_map _)
  obtain ⟨source, target⟩ := Prod.mk.inj same
  have liveLeft := wf.edgesLive e left
  have liveRight := wf.edgesLive f right
  exact wf.eq_of_ends left right (Prod.ext (wf.label_inj liveLeft.1 liveRight.1 source)
    (wf.label_inj liveLeft.2 liveRight.2 target))

/-- The statements of a graph's text describe the graph. -/
theorem ofText_items (wf : g.WellFormed) {statements : List Statement}
    (tells : statements.map (Statement.atLine 0) = (items g).map Item.statement) :
    ofText ⟨false, g.name, ⟨statements, none⟩⟩ = .ok (ofGraph g) := by
  have set : AttrMap.empty.insertAll g.attrs.entries = g.attrs := g.attrs.ofList_entries
  have known : ∀ e ∈ g.edges, g.label e.source ∈ (g.nodes.map nodeEntry).map Prod.fst ∧
      g.label e.target ∈ (g.nodes.map nodeEntry).map Prod.fst := by
    intro e member
    rw [map_fst_nodeEntry]
    exact ⟨label_mem wf (wf.edgesLive e member).1, label_mem wf (wf.edgesLive e member).2⟩
  have ran : (items g).foldlM (fun doc item => run doc item.statement) (start false g.name) =
      .ok (ofGraph g) := by
    rw [items, List.foldlM_append, List.foldlM_append, foldlM_attrs, ok_bind,
      foldlM_nodes rfl (by simpa [start] using wf.labelsNodup), ok_bind,
      foldlM_edges rfl (by simpa [start] using known) (by simpa [start] using labelPairs_nodup wf)]
    simp [start, ofGraph, set]
  refine (Agree.ok_iff (agree_ofText false g.name 0 statements)).mp ?_
  rw [tells, ofText]
  refine bind_eq_ok_iff.mpr ⟨ofGraph g, ?_, rfl⟩
  rw [List.foldlM_map]
  exact ran

/-! ## The graph of a document -/

/-- Two graphs have the same contents if their nodes and edges are listed alike. -/
theorem same_of_entries (wf : g.WellFormed) (wf' : h.WellFormed)
    (nodes : g.nodes.map nodeEntry = h.nodes.map nodeEntry)
    (edges : g.edges.map (edgeEntry g) = h.edges.map (edgeEntry h)) : g.same h = true := by
  have entry {k : FlowGraph} (wf : k.WellFormed) : k.entry?.map k.label =
      ((k.nodes.map nodeEntry).find? fun entry => entry.2.marksEntry).map Prod.fst := by
    unfold entry?
    rw [List.find?_map, Option.map_map, Option.map_map]
    refine Option.map_congr fun n found => ?_
    exact wf.label_node (List.mem_of_find?_eq_some found)
  have triples := congrArg (List.map fun entry => (entry.1.1, entry.1.2, entry.2)) edges
  rw [List.map_map, List.map_map] at triples
  rw [same, beq_iff_eq, contents, contents, entry wf, entry wf', nodes]
  exact Prod.ext nodes (Prod.ext rfl triples)

/-- The document of a graph describes a graph whose nodes and edges are those that it lists, in an
order of their own. -/
theorem toGraph_perm (wf : g.WellFormed) :
    ∃ h, (ofGraph g).toGraph = .ok h ∧ (h.nodes.map nodeEntry).Perm (g.nodes.map nodeEntry) ∧
      (h.edges.map (edgeEntry h)).Perm (g.edges.map (edgeEntry g)) ∧ h.name = g.name ∧
      h.attrs = g.attrs := by
  have single : OneEntry (g.nodes.map nodeEntry) := by
    refine List.pairwise_map.mpr ((List.pairwise_map.mp wf.idsNodup).imp_of_mem ?_)
    intro m n left right different both
    exact different (wf.oneEntry m left n right both.1 both.2)
  have labelsNodup : ((g.nodes.map nodeEntry).map Prod.fst).Nodup := by
    rw [map_fst_nodeEntry]
    exact wf.labelsNodup
  have pairsNodup : ((g.edges.map (edgeEntry g)).map Prod.fst).Nodup := by
    rw [map_fst_edgeEntry]
    exact labelPairs_nodup wf
  have known : ∀ pair ∈ (g.edges.map (edgeEntry g)).map Prod.fst,
      pair.1 ∈ (g.nodes.map nodeEntry).map Prod.fst ∧
        pair.2 ∈ (g.nodes.map nodeEntry).map Prod.fst := by
    intro pair member
    rw [map_fst_edgeEntry] at member
    obtain ⟨e, listed, rfl⟩ := List.mem_map.mp member
    rw [map_fst_nodeEntry]
    exact ⟨label_mem wf (wf.edgesLive e listed).1, label_mem wf (wf.edgesLive e listed).2⟩
  have described := (ofGraph g).outcome_toGraph labelsNodup pairsNodup known
  cases ran : (ofGraph g).toGraph with
  | error error => exact absurd single (described.of_error ran).1
  | ok h => exact ⟨h, rfl, (described.of_ok ran).2⟩

/-- What is listed strictly in order can be listed in one way only. -/
theorem eq_of_perm_of_pairwise {α : Type} {compare : α → α → Ordering} [Std.OrientedCmp compare]
    {items others : List α} (perm : items.Perm others)
    (sorted : items.Pairwise fun a b => compare a b = .lt)
    (sorted' : others.Pairwise fun a b => compare a b = .lt) : items = others := by
  refine List.Perm.eq_of_pairwise (fun a b _ _ less greater => ?_) sorted sorted' perm
  rw [Std.OrientedCmp.gt_iff_lt.mpr greater] at less
  cases less

/-- The orders of nodes and edges, as orders of what is known of them. -/
def compareNodeEntries : String × AttrMap → String × AttrMap → Ordering :=
  Ordering.byKey Prod.fst Text.naturalCompare

def compareEdgeEntries : (String × String) × AttrMap → (String × String) × AttrMap → Ordering :=
  compareLex (Ordering.byKey (fun entry => entry.1.1) Text.naturalCompare)
    (compareLex (Ordering.byKey (fun entry => Branch.ofCond (entry.2.get? "cond")) Branch.compare)
      (Ordering.byKey (fun entry => entry.1.2) Text.naturalCompare))

theorem same_of_perm (sound : g.Sound) (sound' : h.Sound)
    (nodes : (h.nodes.map nodeEntry).Perm (g.nodes.map nodeEntry))
    (edges : (h.edges.map (edgeEntry h)).Perm (g.edges.map (edgeEntry g))) : g.same h = true := by
  -- Both lists are sorted strictly, so being permuted they are the same.
  have : Std.OrientedCmp compareNodeEntries := by
    rw [compareNodeEntries]
    infer_instance
  have : Std.OrientedCmp compareEdgeEntries := by
    rw [compareEdgeEntries]
    infer_instance
  have nodesSorted {k : FlowGraph} (sound : k.Sound) :
      (k.nodes.map nodeEntry).Pairwise fun a b => compareNodeEntries a b = .lt :=
    List.pairwise_map.mpr sound.ordered.nodes
  have edgesSorted {k : FlowGraph} (sound : k.Sound) :
      (k.edges.map (edgeEntry k)).Pairwise fun a b => compareEdgeEntries a b = .lt := by
    refine List.pairwise_map.mpr (sound.ordered.edges.imp fun {e f} less => ?_)
    rwa [compareEdges] at less
  exact same_of_entries sound.wf sound'.wf
    (eq_of_perm_of_pairwise nodes.symm (nodesSorted sound) (nodesSorted sound'))
    (eq_of_perm_of_pairwise edges.symm (edgesSorted sound) (edgesSorted sound'))

/-- The document of a graph describes a graph with the same contents. -/
theorem toGraph_ofGraph (sound : g.Sound) :
    ∃ h, (ofGraph g).toGraph = .ok h ∧ g.same h = true ∧ h.name = g.name ∧ h.attrs = g.attrs := by
  obtain ⟨h, ran, nodes, edges, name, attrs⟩ := toGraph_perm sound.wf
  exact ⟨h, ran, same_of_perm sound (Sound.keptByAdding.toGraph ran) nodes edges, name, attrs⟩

end Document

/-! ## A whole text -/

/-- No name, label, key or value of a graph begins with a blank beyond ASCII. -/
structure SolidTexts (g : FlowGraph) : Prop where
  name : Solid g.name
  attrs : SolidEntries g.attrs.entries
  nodes : ∀ n ∈ g.nodes, Solid n.label ∧ SolidEntries n.attrs.entries
  edges : ∀ e ∈ g.edges, SolidEntries e.attrs.entries

theorem SolidTexts.items (solid : SolidTexts g) (wf : g.WellFormed) :
    ∀ item ∈ items g, item.Solid := by
  have label {id : NodeId} (live : id ∈ g.nodeIds) : Solid (g.label id) := by
    obtain ⟨n, member, rfl⟩ := mem_nodeIds.mp live
    rw [wf.label_node member]
    exact (solid.nodes n member).1
  intro item member
  simp only [Dot.items, List.mem_append, List.mem_map, or_assoc] at member
  rcases member with ⟨entry, member, rfl⟩ | ⟨n, member, rfl⟩ | ⟨e, member, rfl⟩
  · exact solid.attrs entry member
  · exact solid.nodes n member
  · exact ⟨label (wf.edgesLive e member).1, label (wf.edgesLive e member).2, solid.edges e member⟩

/-- A graph is read back from its text: with its contents, its name and its attributes, and so that
the same text is written of it again. -/
theorem read_write (reachable : Reachable g) (solid : SolidTexts g) :
    ∃ h, read (write g) = .ok h ∧ g.same h = true ∧ h.name = g.name ∧ h.attrs = g.attrs ∧
      write h = write g := by
  have sound := reachable.sound
  obtain ⟨made, cut, tokens⟩ := lexemes_write solid.name (solid.items sound.wf)
  obtain ⟨statements, outline, tells⟩ := ofLexemes_items tokens
  obtain ⟨h, ran, same, name, attrs⟩ := Document.toGraph_ofGraph sound
  refine ⟨h, ?_, same, name, attrs, (write_congr same name.symm attrs.symm).symm⟩
  rw [read, cut, ok_bind, outline, ok_bind, Document.ofText_items sound.wf tells, ok_bind, ran]
  rfl

/-- Reserved words, numerals and what looks like them, quotes, backslashes and ends of lines. -/
def peculiar : FlowGraph where
  name := "Strict"
  attrs := .ofList [("", "a\\\nb"), ("1.2.3", "-.5")]
  nodes := [⟨2, "", .empty, .ofAttrs .empty⟩,
    ⟨1, "\"\\\"", .ofList [("entry", "true")], .ofAttrs (.ofList [("entry", "true")])⟩,
    ⟨0, "subGraph", .ofList [("5.", "\n\\")], .ofAttrs (.ofList [("5.", "\n\\")])⟩]
  edges := [⟨1, 2, .ofList [("cond", "true")]⟩, ⟨1, 0, .ofList [("cond", "false")]⟩]
  nextNode := 3
  nextEdge := 2

theorem peculiar_read_write : Reachable peculiar ∧ SolidTexts peculiar ∧
    ∃ h, read (write peculiar) = .ok h ∧ peculiar.same h = true ∧ h.name = "Strict" ∧
      h.attrs = peculiar.attrs ∧ write h = write peculiar := by
  have reachable : Reachable peculiar := by
    have made : Reachable (.empty "Strict") :=
      .made (show (Origin.empty "Strict").graph? = some _ from rfl)
    have third := ((((((made.attributed peculiar.attrs).changed
      (.addNode "subGraph" (.ofList [("5.", "\n\\")]))).changed
      (.addNode "\"\\\"" (.ofList [("entry", "true")]))).changed (.addBlock "")).changed
      (.addEdge 1 0 (.ofList [("cond", "false")]))).changed
      (.addEdge 1 2 (.ofList [("cond", "true")])))
    exact third
  have attrs : peculiar.attrs.entries = [("", "a\\\nb"), ("1.2.3", "-.5")] := rfl
  have marked : (AttrMap.ofList [("entry", "true")]).entries = [("entry", "true")] := rfl
  have numeral : (AttrMap.ofList [("5.", "\n\\")]).entries = [("5.", "\n\\")] := rfl
  have onTrue : (AttrMap.ofList [("cond", "true")]).entries = [("cond", "true")] := rfl
  have onFalse : (AttrMap.ofList [("cond", "false")]).entries = [("cond", "false")] := rfl
  have solid : SolidTexts peculiar := by
    refine ⟨?_, ?_, ?_, ?_⟩
    · simp [Solid, peculiar]
    · simp [SolidEntries, Solid, attrs]
    · simp [SolidEntries, Solid, peculiar, marked, numeral, AttrMap.empty]
    · simp [SolidEntries, Solid, peculiar, onTrue, onFalse]
  exact ⟨reachable, solid, read_write reachable solid⟩

end ControlFlow.Dot
