import ControlFlow.Proofs.Dot.Grammar
import ControlFlow.Proofs.Dot.Writing

/-! The tokens of a written graph, read as statements again. They are those of a script with a
statement for each line of the text, in which every id stands as it is quoted. -/
namespace ControlFlow.Dot

/-- Entries as they stand in a written list, with commas between them. -/
def commaSeparated : Entries → List WrittenEntry
  | [] => []
  | [(key, value)] => [⟨.ofId key, .ofId value, .none⟩]
  | (key, value) :: entries => ⟨.ofId key, .ofId value, .comma⟩ :: commaSeparated entries

theorem entries_commaSeparated (entries : Entries) :
    (commaSeparated entries).map WrittenEntry.entry = entries := by
  fun_induction commaSeparated entries with
  | case1 => rfl
  | case2 key value => simp [WrittenEntry.entry]
  | case3 key value entries _ ih => simp [WrittenEntry.entry, ih]

theorem tokens_commaSeparated (entries : Entries) :
    (commaSeparated entries).flatMap WrittenEntry.tokens =
      [Token.comma].intercalate (entries.map entryTokens) := by
  fun_induction commaSeparated entries with
  | case1 => rfl
  | case2 key value =>
    simp [WrittenEntry.tokens, Spelling.tokens_ofId, Separator.tokens, entryTokens]
  | case3 key value entries several ih =>
    cases entries with
    | nil => exact absurd rfl several
    | cons next entries =>
      rw [List.flatMap_cons, ih, List.map_cons, List.map_cons, List.map_cons,
        List.intercalate_cons_cons]
      simp [WrittenEntry.tokens, Spelling.tokens_ofId, Separator.tokens, entryTokens]

/-- The list of a node or an edge; none if it has no attributes. -/
def writtenLists (attrs : AttrMap) : Lists :=
  if attrs.isEmpty then [] else [commaSeparated attrs.entries]

theorem entries_writtenLists (attrs : AttrMap) : (writtenLists attrs).entries = attrs.entries := by
  rw [writtenLists]
  split
  · next empty => exact (List.isEmpty_iff.mp empty).symm
  · simp [Lists.entries, entries_commaSeparated]

theorem tokens_writtenLists (attrs : AttrMap) : (writtenLists attrs).tokens = listTokens attrs := by
  rw [writtenLists, listTokens]
  split
  · rfl
  · simp [Lists.tokens, tokens_commaSeparated]

namespace Item

/-- The statement on a line of a written graph, as it stands there and as it is read. -/
def clause : Item → Clause
  | attr key value => .assign (.ofId key) (.ofId value)
  | node label attrs => .node (.ofId label) (writtenLists attrs)
  | edge source target attrs => .chain (.ofId source) [.ofId target] (writtenLists attrs)

def statement (item : Item) : Statement := item.clause.statement

theorem statement_attr (key value : String) : (attr key value).statement = .assign key value := by
  simp [statement, clause, Clause.statement]

theorem statement_node (label : String) (attrs : AttrMap) :
    (node label attrs).statement = .node label attrs.entries := by
  simp [statement, clause, Clause.statement, entries_writtenLists]

theorem statement_edge (source target : String) (attrs : AttrMap) :
    (edge source target attrs).statement = .chain 0 source [target] attrs.entries := by
  simp [statement, clause, Clause.statement, entries_writtenLists]

theorem tokens_clause (item : Item) : item.clause.tokens = item.tokens := by
  cases item <;>
    simp [clause, Clause.tokens, tokens, Spelling.tokens_ofId, tokens_writtenLists, entryTokens]

theorem shaped_clause (item : Item) : item.clause.Shaped := by
  cases item <;> simp [clause, Clause.Shaped]

theorem readable_clause (item : Item) : item.clause.Readable := by
  have free := fun s => Spelling.not_isWord_of_not_reserved (Spelling.not_reserved_ofId s)
    (show "subgraph" ∈ keywords by decide)
  cases item <;> constructor <;>
    simp [clause, Clause.head?, Clause.targets, Spelling.not_reserved_ofId, free]

end Item

/-- A written graph as a script: a semicolon behind each statement. -/
def itemScript (name : String) (items : List Item) : Script where
  strict := none
  word := "digraph"
  name := if name.isEmpty then none else some (.ofId name)
  body := items.flatMap fun item => [some item.clause, none]

theorem clauses_itemScript (name : String) (items : List Item) :
    (itemScript name items).clauses = items.map Item.clause := by
  rw [Script.clauses, itemScript]
  induction items with
  | nil => rfl
  | cons item items ih => simpa using ih

theorem tokens_itemScript (name : String) (items : List Item) :
    (itemScript name items).tokens = headTokens name ++
      (items.flatMap (fun item => item.tokens ++ [.semicolon]) ++ [.rightBrace]) := by
  have body : Script.bodyTokens (itemScript name items).body =
      items.flatMap fun item => item.tokens ++ [.semicolon] := by
    rw [Script.bodyTokens, itemScript, List.flatMap_assoc]
    simp [Item.tokens_clause]
  rw [Script.tokens, body, itemScript, headTokens]
  split <;> simp [Spelling.tokens_ofId]

theorem outline_itemScript (name : String) (items : List Item) :
    (itemScript name items).outline = ⟨false, name, ⟨items.map Item.statement, none⟩⟩ := by
  have named : (itemScript name items).name.elim "" Spelling.text = name := by
    rw [itemScript]
    split
    · next empty => exact (String.isEmpty_iff.mp empty).symm
    · simp
  rw [Script.outline, clauses_itemScript, named, List.map_map]
  rfl

/-- The outline of a written graph. -/
theorem ofLexemes_items {name : String} {items : List Item} {lexemes : List Lexeme}
    (tokens : lexemes.map Lexeme.token = headTokens name ++
      (items.flatMap (fun item => item.tokens ++ [.semicolon]) ++ [.rightBrace])) :
    ∃ statements, Outline.ofLexemes lexemes = .ok ⟨false, name, ⟨statements, none⟩⟩ ∧
      statements.map (Statement.atLine 0) = items.map Item.statement := by
  have clauses := clauses_itemScript name items
  have shaped : (itemScript name items).Shaped := by
    refine ⟨by simp [itemScript], show lowerAscii "digraph" = "digraph" by decide,
      fun clause member => ?_⟩
    rw [clauses] at member
    obtain ⟨item, -, rfl⟩ := List.mem_map.mp member
    exact item.shaped_clause
  have readable : ∀ clause ∈ (itemScript name items).clauses, clause.Readable := by
    intro clause member
    rw [clauses] at member
    obtain ⟨item, -, rfl⟩ := List.mem_map.mp member
    exact item.readable_clause
  have read := ofLexemes_script shaped readable (tokens.trans (tokens_itemScript name items).symm)
  rwa [outline_itemScript] at read

end ControlFlow.Dot
