import ControlFlow.Proofs.Dot.DescribedGraph
import ControlFlow.Proofs.Dot.Rendering

/-! What a text without repeated edges means. Its statements mean a graph: which nodes and edges it
has, and the attributes of each. A rendered text is read as that graph, and it is refused only for an
edge that its chains have twice or for two entries. -/
namespace ControlFlow.Dot

open Statement (defaultsAfter)

/-! ## The meaning of statements -/

/-- The attributes of a node: the defaults in force where the first statement mentions it, overridden
by what its own statements write, in their order. -/
def nodeMeaning (statements : List Statement) (label : String) : AttrMap :=
  (defaultsAfter .node (statements.takeWhile fun s => !s.labels.contains label)).insertAll
    (statements.flatMap (Statement.nodeEntries label))

/-- The attributes of an edge that one statement mentions: the defaults in force there, overridden by
what it writes. -/
def edgeMeaning (statements : List Statement) (pair : String × String) : AttrMap :=
  (defaultsAfter .edge (statements.takeWhile fun s => !s.pairs.contains pair)).insertAll
    (statements.flatMap (Statement.edgeEntries pair))

/-- Two nodes are marked as the entry. -/
def TwoEntries (statements : List Statement) : Prop :=
  ∃ a ∈ statements.flatMap Statement.labels, ∃ b ∈ statements.flatMap Statement.labels,
    a ≠ b ∧ (nodeMeaning statements a).marksEntry = true ∧
      (nodeMeaning statements b).marksEntry = true

instance (statements : List Statement) : Decidable (TwoEntries statements) :=
  inferInstanceAs (Decidable (∃ a ∈ _, ∃ b ∈ _, _))

/-- A graph is the one that statements mean: its nodes and edges are those that they mention. -/
structure Means (statements : List Statement) (g : FlowGraph) : Prop where
  attrs : g.attrs = defaultsAfter .graph statements
  labelsNodup : (g.nodes.map Node.label).Nodup
  labels : ∀ label, label ∈ g.nodes.map Node.label ↔ label ∈ statements.flatMap Statement.labels
  nodes : ∀ n ∈ g.nodes, n.attrs = nodeMeaning statements n.label
  pairsNodup : (g.edges.map (labelPair g)).Nodup
  pairs : ∀ pair, pair ∈ g.edges.map (labelPair g) ↔ pair ∈ statements.flatMap Statement.pairs
  edges : ∀ e ∈ g.edges, e.attrs = edgeMeaning statements (labelPair g e)

/-- The statements in front of the first one that is asked for. -/
theorem takeWhile_before {p : Statement → Bool} {before later : List Statement} {first : Statement}
    (passed : ∀ s ∈ before, p s = true) (found : p first = false) :
    (before ++ first :: later).takeWhile p = before := by
  rw [List.takeWhile_append_of_pos passed, List.takeWhile_cons_of_neg (by simp [found]),
    List.append_nil]

namespace Document

variable {strict : Bool} {name : String} {statements : List Statement} {doc : Document}

namespace Records

theorem nodeMeaning (records : Records strict name statements doc) {label : String} {attrs : AttrMap}
    (known : doc.nodes.lookup label = some attrs) : attrs = Dot.nodeMeaning statements label := by
  obtain ⟨before, first, later, split, new, mentioned, rfl⟩ := records.nodes label attrs known
  have inFront : statements.takeWhile (fun s => !s.labels.contains label) = before := by
    rw [split]
    refine takeWhile_before (fun s member => ?_) (by simpa using mentioned)
    have silent := fun earlier => new (List.mem_flatMap.mpr ⟨s, member, earlier⟩)
    simpa using silent
  rw [Dot.nodeMeaning, inFront, nodeAttrs]

theorem edgeMeaning (records : Records false name statements doc) {pair : String × String}
    {attrs : AttrMap} (known : doc.edges.lookup pair = some attrs) :
    attrs = Dot.edgeMeaning statements pair := by
  obtain ⟨before, last, later, rfl, mentioned, passed, rfl⟩ := records.edges pair attrs known
  -- No statement in front of it mentions the edge, since none may do so again.
  have new : pair ∉ before.flatMap Statement.pairs := by
    have nodup := records.single rfl
    rw [List.flatMap_append, List.flatMap_cons, List.nodup_append] at nodup
    exact fun earlier => nodup.2.2 pair earlier pair (List.mem_append_left _ mentioned) rfl
  have inFront : (before ++ last :: later).takeWhile (fun s => !s.pairs.contains pair) = before := by
    refine takeWhile_before (fun s member => ?_) (by simpa using mentioned)
    have silent := fun earlier => new (List.mem_flatMap.mpr ⟨s, member, earlier⟩)
    simpa using silent
  have only : (before ++ last :: later).flatMap (Statement.edgeEntries pair) =
      (before ++ [last]).flatMap (Statement.edgeEntries pair) := by
    simp [edgeEntries_of_not_mentioned passed]
  rw [Dot.edgeMeaning, inFront, edgeAttrs, only, ← edgeAttrs, edgeAttrs_first new,
    List.flatMap_append, edgeEntries_of_not_mentioned new, List.flatMap_singleton, List.nil_append]

theorem mem_labels (records : Records strict name statements doc) {label : String} :
    label ∈ doc.nodes.map Prod.fst ↔ label ∈ statements.flatMap Statement.labels := by
  rw [← records.labels, ne_eq, lookup_eq_none_iff, not_not]

theorem mem_pairs (records : Records strict name statements doc) {pair : String × String} :
    pair ∈ doc.edges.map Prod.fst ↔ pair ∈ statements.flatMap Statement.pairs := by
  rw [← records.pairs, ne_eq, lookup_eq_none_iff, not_not]

theorem oneEntry_iff (records : Records strict name statements doc) :
    OneEntry doc.nodes ↔ ¬TwoEntries statements := by
  have meaning {entry : String × AttrMap} (member : entry ∈ doc.nodes) :
      entry.2 = Dot.nodeMeaning statements entry.1 :=
    records.nodeMeaning ((AttrMap.lookup_eq_some_iff records.labelsNodup).mpr member)
  constructor
  · rintro single ⟨a, mentioned, b, mentioned', different, marked, marked'⟩
    obtain ⟨entry, member, rfl⟩ := List.mem_map.mp (records.mem_labels.mpr mentioned)
    obtain ⟨entry', member', rfl⟩ := List.mem_map.mp (records.mem_labels.mpr mentioned')
    rw [← meaning member] at marked
    rw [← meaning member'] at marked'
    have : Std.Symm fun a b : String × AttrMap =>
        ¬(a.2.marksEntry = true ∧ b.2.marksEntry = true) := ⟨fun _ _ apart both => apart both.symm⟩
    exact List.Pairwise.forall single member member'
      (fun same => different (congrArg Prod.fst same)) ⟨marked, marked'⟩
  · intro single
    refine (records.labelsNodup.of_map _).pairwise_of_forall_ne ?_
    rintro entry member entry' member' different ⟨marked, marked'⟩
    have values := meaning member
    have values' := meaning member'
    refine single ⟨entry.1, records.mem_labels.mp (List.mem_map_of_mem member), entry'.1,
      records.mem_labels.mp (List.mem_map_of_mem member'), fun same => different ?_, values ▸ marked,
      values' ▸ marked'⟩
    exact Prod.ext same (by rw [values, values', same])

/-- The graph of a document is the one that its statements mean. -/
theorem means (records : Records false name statements doc) {h : FlowGraph}
    (nodes : (h.nodes.map nodeEntry).Perm doc.nodes)
    (edges : (h.edges.map (edgeEntry h)).Perm doc.edges) (attrs : h.attrs = doc.graphAttrs) :
    Means statements h := by
  have labels : (h.nodes.map Node.label).Perm (doc.nodes.map Prod.fst) := by
    rw [← map_fst_nodeEntry]
    exact nodes.map Prod.fst
  have pairs : (h.edges.map (labelPair h)).Perm (doc.edges.map Prod.fst) := by
    rw [← map_fst_edgeEntry]
    exact edges.map Prod.fst
  exact {
    attrs := attrs.trans records.graphAttrs
    labelsNodup := labels.nodup_iff.mpr records.labelsNodup
    labels := fun label => labels.mem_iff.trans records.mem_labels
    nodes := fun n member =>
      records.nodeMeaning (lookup_of_mem_nodes records.labelsNodup nodes member)
    pairsNodup := pairs.nodup_iff.mpr records.pairsNodup
    pairs := fun pair => pairs.mem_iff.trans records.mem_pairs
    edges := fun e member =>
      records.edgeMeaning (lookup_of_mem_edges records.pairsNodup edges member) }

end Records

end Document

/-! ## Rendered texts -/

variable {script : Script} {text : String}

/-- An id that stands as it is quoted is not a reserved word. -/
theorem readable_of_asQuoted (quoted : ∀ s ∈ script.ids, s.AsQuoted) :
    ∀ clause ∈ script.clauses, clause.Readable := by
  intro clause listed
  have free {s : Spelling} (member : s ∈ clause.ids) : ¬s.Reserved := by
    rw [quoted s (List.mem_append_right _ (List.mem_flatMap.mpr ⟨clause, listed, member⟩))]
    exact Spelling.not_reserved_ofId s.text
  constructor
  · intro s head
    refine free ?_
    cases clause <;> simp_all [Clause.head?, Clause.ids]
  · intro s target
    refine Spelling.not_isWord_of_not_reserved (free ?_) (by decide)
    cases clause <;> simp_all [Clause.targets, Clause.ids]

/-- A text that a script spells is read as its statements are carried out. -/
theorem read_spelled (shaped : script.Shaped) (readable : ∀ clause ∈ script.clauses, clause.Readable)
    (spells : script.Spells text) :
    ∃ statements, statements.map (Statement.atLine 0) = script.clauses.map Clause.statement ∧
      read text = (do
        let doc ← Document.ofText ⟨script.strict.isSome, script.outline.name, ⟨statements, none⟩⟩
        doc.toGraph.mapError .graph) := by
  obtain ⟨made, cut, tokens⟩ := spells
  obtain ⟨statements, outlined, same⟩ := ofLexemes_script shaped readable tokens
  refine ⟨statements, same, ?_⟩
  rw [read, cut, ok_bind, outlined, ok_bind]
  rfl

/-- What a rendered text without `strict` is read as. -/
theorem read_rendered_cases (shaped : script.Shaped) (loose : script.strict = none)
    (quoted : ∀ s ∈ script.ids, s.AsQuoted) (rendered : Renders script.tokens text.toList) :
    (¬((script.clauses.map Clause.statement).flatMap Statement.pairs).Nodup ∧
      ∃ line cause, read text = .error (.fault line cause)) ∨
    (((script.clauses.map Clause.statement).flatMap Statement.pairs).Nodup ∧
      TwoEntries (script.clauses.map Clause.statement) ∧
        ∃ cause, cause.sort = .invalid ∧ read text = .error (.graph cause)) ∨
    (((script.clauses.map Clause.statement).flatMap Statement.pairs).Nodup ∧
      ¬TwoEntries (script.clauses.map Clause.statement) ∧
        ∃ g, read text = .ok g ∧ g.name = script.outline.name ∧
          Means (script.clauses.map Clause.statement) g) := by
  obtain ⟨statements, same, run⟩ := read_spelled shaped (readable_of_asQuoted quoted)
    (Cuts.lexemes rendered.cuts)
  rw [loose, Option.isSome_none] at run
  -- Lines aside, what is carried out are the statements of the script.
  have agree := Document.agree_ofText false script.outline.name 0 statements
  rw [same] at agree
  have meant := Document.outcome_ofText false script.outline.name
    (script.clauses.map Clause.statement)
  have carried := Document.outcome_ofText false script.outline.name statements
  cases ran : Document.ofText ⟨false, script.outline.name,
      ⟨script.clauses.map Clause.statement, none⟩⟩ with
  | error error =>
    obtain ⟨-, repeated, -⟩ := meant.of_error ran
    rw [ran] at agree
    obtain ⟨fault, failed⟩ := agree.exists_error
    obtain ⟨-, -, line, cause, rfl⟩ := carried.of_error failed
    refine .inl ⟨repeated, line, cause, ?_⟩
    rw [run, failed]
    rfl
  | ok doc =>
    have records := meant.of_ok ran
    have single := records.single rfl
    rw [(Agree.ok_iff agree).mp ran, ok_bind] at run
    have described := records.outcome_toGraph
    cases built : doc.toGraph with
    | error error =>
      obtain ⟨two, label, entry, rfl⟩ := described.of_error built
      rw [records.oneEntry_iff, not_not] at two
      refine .inr (.inl ⟨single, two, .secondEntry label entry, rfl, ?_⟩)
      rw [run, built]
      rfl
    | ok g =>
      obtain ⟨one, nodes, edges, name, attrs⟩ := described.of_ok built
      refine .inr (.inr ⟨single, records.oneEntry_iff.mp one, g, ?_,
        name.trans records.sameName, records.means nodes edges attrs⟩)
      rw [run, built]
      rfl

/-- A rendered text without `strict` is refused as a text exactly if its chains have an edge twice.
Otherwise it is refused as a graph exactly if two nodes come to be marked as the entry, and if not,
it is read as the graph that its statements mean. -/
theorem read_rendered (shaped : script.Shaped) (loose : script.strict = none)
    (quoted : ∀ s ∈ script.ids, s.AsQuoted) (rendered : Renders script.tokens text.toList) :
    ((∃ line cause, read text = .error (.fault line cause)) ↔
      ¬((script.clauses.map Clause.statement).flatMap Statement.pairs).Nodup) ∧
    ((∃ cause, cause.sort = .invalid ∧ read text = .error (.graph cause)) ↔
      ((script.clauses.map Clause.statement).flatMap Statement.pairs).Nodup ∧
        TwoEntries (script.clauses.map Clause.statement)) ∧
    (((script.clauses.map Clause.statement).flatMap Statement.pairs).Nodup →
      ¬TwoEntries (script.clauses.map Clause.statement) →
        ∃ g, read text = .ok g ∧ g.name = script.outline.name ∧
          Means (script.clauses.map Clause.statement) g) := by
  rcases read_rendered_cases shaped loose quoted rendered with
    ⟨repeated, line, cause, ran⟩ | ⟨single, two, cause, sort, ran⟩ | ⟨single, one, g, ran, meant⟩
  · refine ⟨iff_of_true ⟨line, cause, ran⟩ repeated, iff_of_false ?_ fun both => repeated both.1,
      fun single => absurd single repeated⟩
    rintro ⟨cause, -, other⟩
    cases ran.symm.trans other
  · refine ⟨iff_of_false ?_ (not_not.mpr single), iff_of_true ⟨cause, sort, ran⟩ ⟨single, two⟩,
      fun _ one => absurd two one⟩
    rintro ⟨line, fault, other⟩
    cases ran.symm.trans other
  · refine ⟨iff_of_false ?_ (not_not.mpr single), iff_of_false ?_ fun both => one both.2,
      fun _ _ => ⟨g, ran, meant⟩⟩
    · rintro ⟨line, fault, other⟩
      cases ran.symm.trans other
    · rintro ⟨cause, -, other⟩
      cases ran.symm.trans other

/-- Defaults for nodes between a chain and a node that the chain has mentioned, and a node whose label
is a reserved word. -/
def mixed : Script where
  strict := none
  word := "digraph"
  name := some (.ofId "a b")
  body := [some (.chain (.ofId "A") [.ofId "B", .ofId "node"] [[⟨.ofId "w", .ofId "1", .semicolon⟩]]),
    some (.defaults .node "Node" [[⟨.ofId "c", .ofId "x", .none⟩]]), none,
    some (.node (.ofId "A") [[⟨.ofId "entry", .ofId "true", .none⟩], []]),
    some (.assign (.ofId "k") (.ofId "v")), some (.node (.ofId "C") [])]

theorem mixed_read :
    Renders mixed.tokens (spaced mixed.tokens) ∧
      ∃ g, read (String.ofList (spaced mixed.tokens)) = .ok g ∧ g.name = "a b" ∧
        Means (mixed.clauses.map Clause.statement) g := by
  have shaped : mixed.Shaped := by
    have node : lowerAscii "Node" = Subject.node.keyword := rfl
    exact ⟨nofun, by decide, by simp [mixed, Script.clauses, Clause.Shaped, node]⟩
  have quoted : ∀ s ∈ mixed.ids, s.AsQuoted ∧ Solid s.text := by
    simp [mixed, Script.ids, Script.clauses, Clause.ids, Lists.ids, Spelling.AsQuoted, Solid]
  have rendered := Script.renders_spaced shaped quoted
  have read := @read_rendered mixed (String.ofList (spaced mixed.tokens)) shaped rfl
    (fun s member => (quoted s member).1) (by rwa [String.toList_ofList])
  exact ⟨rendered, read.2.2 (by decide) (by decide)⟩

end ControlFlow.Dot
