import ControlFlow.Proofs.Dot.DescribedGraph

/-! Defaults and what statements write themselves. A node takes its defaults when it is first
mentioned, so whatever its statements write stands above them. An edge of a strict graph takes
defaults with each statement that mentions it, and those of the last one stand above all that the
statements before it have written. -/
namespace ControlFlow.Dot

open Statement (defaultsAfter)

/-- The value that a list writes for a key, the last one if it writes several. -/
def writtenValue (entries : Entries) (key : String) : Option String := entries.reverse.lookup key

namespace Document

theorem get?_nodeAttrs (before statements : List Statement) (label key : String) :
    (nodeAttrs before statements label).get? key =
      (writtenValue (statements.flatMap (Statement.nodeEntries label)) key).or
        ((defaultsAfter .node before).get? key) :=
  AttrMap.get?_insertAll _ _ key

theorem get?_edgeAttrs (before statements : List Statement) (last : Statement)
    (pair : String × String) (key : String) :
    (edgeAttrs before last statements pair).get? key =
      (writtenValue (last.edgeEntries pair) key).or (((defaultsAfter .edge before).get? key).or
        (writtenValue (statements.flatMap (Statement.edgeEntries pair)) key)) := by
  rw [edgeAttrs, AttrMap.get?_insertAll, AttrMap.get?_override, AttrMap.get?_ofList_last]
  rfl

end Document

variable {text : String} {made : List Lexeme} {outline : Outline} {g : FlowGraph}

/-- A graph that is read is what its statements describe. -/
theorem exists_records (cut : lexemes text = .ok made)
    (outlined : Outline.ofLexemes made = .ok outline) (ran : read text = .ok g) :
    ∃ doc, Document.Records outline.strict outline.name outline.body.statements doc ∧
      doc.toGraph = .ok g := by
  rw [read, cut, ok_bind, outlined, ok_bind] at ran
  obtain ⟨doc, carried, described⟩ := bind_eq_ok_iff.mp ran
  refine ⟨doc, ?_, mapError_eq_ok_iff.mp described⟩
  obtain ⟨strict, name, ⟨statements, fault⟩⟩ := outline
  cases fault with
  | none => exact (Document.outcome_ofText strict name statements).of_ok carried
  | some fault =>
    obtain ⟨_, -, faultless⟩ := bind_eq_ok_iff.mp carried
    cases faultless

/-- The attributes of a node: what its statements write last, and else the default that is in force
where the first of them mentions it. -/
def NodeTakes (statements : List Statement) (label : String) (attrs : AttrMap) : Prop :=
  ∃ before first later, statements = before ++ first :: later ∧
    label ∉ before.flatMap Statement.labels ∧ label ∈ first.labels ∧
    ∀ key, attrs.get? key =
      (writtenValue (statements.flatMap (Statement.nodeEntries label)) key).or
        ((defaultsAfter .node before).get? key)

/-- The attributes of an edge: what the last statement of it writes, else the default that is in
force there, and only else what its statements wrote last before. So what they write last is kept
exactly if that statement writes the key itself, or no default in force there has another value. -/
def EdgeTakes (statements : List Statement) (pair : String × String) (attrs : AttrMap) : Prop :=
  ∃ before last later, statements = before ++ last :: later ∧
    pair ∈ last.pairs ∧ pair ∉ later.flatMap Statement.pairs ∧
    (∀ key, attrs.get? key =
      (writtenValue (last.edgeEntries pair) key).or (((defaultsAfter .edge before).get? key).or
        (writtenValue (statements.flatMap (Statement.edgeEntries pair)) key))) ∧
    ∀ key value, writtenValue (statements.flatMap (Statement.edgeEntries pair)) key = some value →
      (attrs.get? key = some value ↔
        writtenValue (last.edgeEntries pair) key ≠ none ∨
          ∀ default, (defaultsAfter .edge before).get? key = some default → default = value)

/-- What statements write last of an edge is what the last of them writes, if it writes the key. -/
theorem writtenValue_last (before : List Statement) {later : List Statement} {last : Statement}
    {pair : String × String} (passed : pair ∉ later.flatMap Statement.pairs) {key value : String}
    (written : writtenValue (last.edgeEntries pair) key = some value) :
    writtenValue ((before ++ last :: later).flatMap (Statement.edgeEntries pair)) key =
      some value := by
  rw [writtenValue] at written ⊢
  rw [List.flatMap_append, List.flatMap_cons, Document.edgeEntries_of_not_mentioned passed,
    List.append_nil, List.reverse_append, List.lookup_append, written]
  rfl

theorem edgeTakes_edgeAttrs {statements before later : List Statement} {last : Statement}
    {pair : String × String} (split : statements = before ++ last :: later)
    (mentioned : pair ∈ last.pairs) (passed : pair ∉ later.flatMap Statement.pairs) :
    EdgeTakes statements pair (Document.edgeAttrs before last statements pair) := by
  have value := Document.get?_edgeAttrs before statements last pair
  refine ⟨before, last, later, split, mentioned, passed, value, fun key kept written => ?_⟩
  rw [value]
  cases own : writtenValue (last.edgeEntries pair) key with
  | some other =>
    have same := writtenValue_last before passed own
    rw [← split, written] at same
    simp [same]
  | none => cases (defaultsAfter .edge before).get? key <;> simp [written]

/-- Every node and every edge of a graph that is read has its attributes from the statements of the
text in this way, whether the graph is strict or not. -/
theorem read_attrs (cut : lexemes text = .ok made) (outlined : Outline.ofLexemes made = .ok outline)
    (ran : read text = .ok g) :
    (∀ n ∈ g.nodes, NodeTakes outline.body.statements n.label n.attrs) ∧
      ∀ e ∈ g.edges, EdgeTakes outline.body.statements (labelPair g e) e.attrs := by
  obtain ⟨doc, records, described⟩ := exists_records cut outlined ran
  obtain ⟨-, nodes, edges, -, -⟩ := records.outcome_toGraph.of_ok described
  constructor
  · intro n member
    have known := Document.lookup_of_mem_nodes records.labelsNodup nodes member
    obtain ⟨before, first, later, split, new, mentioned, attrs⟩ := records.nodes _ _ known
    rw [attrs]
    exact ⟨before, first, later, split, new, mentioned, Document.get?_nodeAttrs before _ n.label⟩
  · intro e member
    have known := Document.lookup_of_mem_edges records.pairsNodup edges member
    obtain ⟨before, last, later, split, mentioned, passed, attrs⟩ := records.edges _ _ known
    rw [attrs]
    exact edgeTakes_edgeAttrs split mentioned passed

/-- An edge that writes a weight and is mentioned again where another weight is the default, and a
node that writes what it has a default for. -/
def reweighted : String :=
  "strict digraph \x7b node [c=x]; A -> B [w=1]; edge [w=2]; A -> B; B [c=y] \x7d"

def reweightedStatements : List Statement :=
  [.defaults .node [("c", "x")], .chain 1 "A" ["B"] [("w", "1")], .defaults .edge [("w", "2")],
    .chain 1 "A" ["B"] [], .node "B" [("c", "y")]]

theorem reweighted_attrs :
    ∃ made g, lexemes reweighted = .ok made ∧
      Outline.ofLexemes made = .ok ⟨true, "", ⟨reweightedStatements, none⟩⟩ ∧
      read reweighted = .ok g ∧ (∀ n ∈ g.nodes, NodeTakes reweightedStatements n.label n.attrs) ∧
      ∀ e ∈ g.edges, EdgeTakes reweightedStatements (labelPair g e) e.attrs := by
  obtain ⟨made, cut, outlined⟩ : ∃ made, lexemes reweighted = .ok made ∧
      Outline.ofLexemes made = .ok ⟨true, "", ⟨reweightedStatements, none⟩⟩ := ⟨_, rfl, rfl⟩
  obtain ⟨g, ran⟩ : ∃ g, read reweighted = .ok g := ⟨_, rfl⟩
  exact ⟨made, g, cut, outlined, ran, read_attrs cut outlined ran⟩

/-- The default takes the place of the weight that the edge wrote: no other statement of it writes
one. -/
theorem reweighted_loses_written :
    ∃ made g e, lexemes reweighted = .ok made ∧
      Outline.ofLexemes made = .ok ⟨true, "", ⟨reweightedStatements, none⟩⟩ ∧
      read reweighted = .ok g ∧ e ∈ g.edges ∧ labelPair g e = ("A", "B") ∧
      writtenValue (reweightedStatements.flatMap (Statement.edgeEntries ("A", "B"))) "w" =
        some "1" ∧ e.attrs.get? "w" = some "2" :=
  ⟨_, _, _, rfl, rfl, rfl, List.mem_cons_self, rfl, rfl, rfl⟩

end ControlFlow.Dot
