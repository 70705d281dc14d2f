import ControlFlow.Proofs.Dot.Unambiguous

/-! Reserved words without quotes. A statement does not begin with one as its id, and no id behind an
arrow is the word for a subgraph. Everywhere else, as a name, behind an arrow, as a key or as a value,
a reserved word is read as the id that it is in quotes. -/
namespace ControlFlow.Dot

@[simp] theorem Spelling.text_inQuotes (s : Spelling) : s.inQuotes.text = s.text := rfl

namespace WrittenEntry

/-- The same entry with both ids in quotes. -/
def inQuotes (e : WrittenEntry) : WrittenEntry := ⟨e.key.inQuotes, e.value.inQuotes, e.separator⟩

@[simp] theorem entry_inQuotes (e : WrittenEntry) : e.inQuotes.entry = e.entry := rfl

end WrittenEntry

namespace Lists

def ids (lists : Lists) : List Spelling := lists.flatMap (·.flatMap fun e => [e.key, e.value])

def inQuotes (lists : Lists) : Lists := lists.map (·.map WrittenEntry.inQuotes)

@[simp] theorem entries_inQuotes (lists : Lists) : lists.inQuotes.entries = lists.entries := by
  simp [inQuotes, entries, List.flatMap_map, Function.comp_def]

end Lists

namespace Clause

/-- All ids of a statement. -/
def ids : Clause → List Spelling
  | defaults _ _ lists => lists.ids
  | assign key value => [key, value]
  | node label lists => label :: lists.ids
  | chain first others lists => first :: (others ++ lists.ids)

/-- The same statement with all its ids in quotes. -/
def inQuotes : Clause → Clause
  | defaults subject word lists => defaults subject word lists.inQuotes
  | assign key value => assign key.inQuotes value.inQuotes
  | node label lists => node label.inQuotes lists.inQuotes
  | chain first others lists =>
    chain first.inQuotes (others.map Spelling.inQuotes) lists.inQuotes

theorem statement_inQuotes (clause : Clause) : clause.inQuotes.statement = clause.statement := by
  cases clause <;> simp [inQuotes, statement, Function.comp_def]

end Clause

namespace Script

/-- All ids of a text, its name among them. -/
def ids (script : Script) : List Spelling := script.name.toList ++ script.clauses.flatMap Clause.ids

/-- The same text with all its ids in quotes. -/
def inQuotes (script : Script) : Script :=
  { script with
    name := script.name.map Spelling.inQuotes
    body := script.body.map (Option.map Clause.inQuotes) }

theorem graph_inQuotes (script : Script) : script.inQuotes.graph = script.graph := by
  have name : (script.name.map Spelling.inQuotes).elim "" Spelling.text =
      script.name.elim "" Spelling.text := by
    cases script.name <;> rfl
  have clauses : script.inQuotes.clauses = script.clauses.map Clause.inQuotes := by
    simp [clauses, inQuotes, List.map_filterMap, List.filterMap_map]
  have statements : script.inQuotes.clauses.map Clause.statement =
      script.clauses.map Clause.statement := by
    rw [clauses, List.map_map]
    exact List.map_congr_left fun clause _ => clause.statement_inQuotes
  rw [graph, graph, outline, outline, statements]
  simp only [inQuotes, name]

/-- A text is spelled by a script, and no word in it stands where it cannot be read as an id: a
reserved one at the head of a statement, or that for a subgraph behind an arrow. -/
structure Reads (script : Script) (text : String) : Prop where
  spells : script.Spells text
  shaped : script.Shaped
  readable : ∀ clause ∈ script.clauses, clause.Readable

end Script

/-- A text that is read as a graph has exactly one reading, and the graph is the one that the reading
describes with all its ids in quotes. So an unquoted word is refused at the heads of statements and
the word for a subgraph also behind arrows, and nowhere else. -/
theorem read_eq_ok_iff_inQuotes (text : String) (g : FlowGraph) :
    read text = .ok g ↔ (∃! script : Script, script.Reads text) ∧
      ∀ script : Script, script.Reads text → script.inQuotes.graph = .ok g := by
  have one {script other : Script} (reads : script.Reads text) (reads' : other.Reads text) :
      script = other := by
    obtain ⟨made, cut, tokens⟩ := reads.spells
    obtain ⟨made', cut', tokens'⟩ := reads'.spells
    obtain rfl : made = made' := Except.ok.inj (cut.symm.trans cut')
    exact Script.unique reads.shaped reads'.shaped reads.readable reads'.readable
      (tokens.symm.trans tokens')
  constructor
  · intro ran
    obtain ⟨script, spells, shaped, readable, described⟩ := read_eq_ok_iff.mp ran
    have reads : script.Reads text := ⟨spells, shaped, readable⟩
    refine ⟨⟨script, reads, fun other reads' => one reads' reads⟩, fun other reads' => ?_⟩
    rw [one reads' reads, Script.graph_inQuotes, described]
  · rintro ⟨⟨script, reads, -⟩, described⟩
    refine read_eq_ok_iff.mpr ⟨script, reads.spells, reads.shaped, reads.readable, ?_⟩
    rw [← Script.graph_inQuotes, described script reads]

/-- A chain that was cut short in front of a statement with defaults for nodes. -/
def cutShort : String := "digraph \x7b A -> node [shape=box] \x7d"

def cutShortScript : Script where
  strict := none
  word := "digraph"
  name := none
  body := [some (.chain (.bare "A") [.bare "node"] [[⟨.bare "shape", .bare "box", .none⟩]])]

/-- The reserved word is the label of a node. -/
theorem cutShort_reads_word :
    ∃ g, read cutShort = .ok g ∧ cutShortScript.Reads cutShort ∧
      .bare "node" ∈ cutShortScript.ids ∧ (Spelling.bare "node").Reserved ∧
      ∃ n ∈ g.nodes, n.label = "node" := by
  have shaped : cutShortScript.Shaped := by
    refine ⟨nofun, by decide, fun clause member => ?_⟩
    obtain rfl := List.mem_singleton.mp member
    exact List.cons_ne_nil _ _
  have readable : ∀ clause ∈ cutShortScript.clauses, clause.Readable := by
    intro clause member
    obtain rfl := List.mem_singleton.mp member
    refine ⟨fun s head => ?_, fun s target => ?_⟩
    · obtain rfl := Option.some.inj head
      rw [Spelling.reserved_bare]
      decide
    · obtain rfl := List.mem_singleton.mp target
      show lowerAscii "node" ≠ "subgraph"
      decide
  have reserved : (Spelling.bare "node").Reserved := (Spelling.reserved_bare "node").mpr (by decide)
  have listed : Spelling.bare "node" ∈ cutShortScript.ids := by decide
  exact ⟨_, rfl, ⟨⟨_, rfl, rfl⟩, shaped, readable⟩, listed, reserved, _,
    List.mem_cons_of_mem _ List.mem_cons_self, rfl⟩

end ControlFlow.Dot
