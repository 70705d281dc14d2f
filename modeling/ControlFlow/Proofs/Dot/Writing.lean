import ControlFlow.Dot.Write
import ControlFlow.Proofs.Dot.Lexemes

/-! What is written of a graph, line by line, and the tokens that the lines are cut into. The text
of a graph depends on its name, its attributes and its contents alone. -/
namespace ControlFlow.Dot

/-- What one line of a text says. -/
inductive Item where
  | attr (key value : String)
  | node (label : String) (attrs : AttrMap)
  | edge (source target : String) (attrs : AttrMap)

namespace Item

def text : Item → String
  | attr key value => entryText (key, value)
  | node label attrs => quote label ++ listText attrs
  | edge source target attrs => quote source ++ " -> " ++ quote target ++ listText attrs

end Item

/-- What a text says of a graph. -/
def items (g : FlowGraph) : List Item :=
  g.attrs.entries.map (fun (key, value) => .attr key value) ++
    g.nodes.map (fun n => .node n.label n.attrs) ++
    g.edges.map fun e => .edge (g.label e.source) (g.label e.target) e.attrs

/-- One line of a text. -/
def Item.line (item : Item) : String := "    " ++ item.text ++ ";\n"

theorem write_eq (g : FlowGraph) :
    write g = headText g.name ++ String.join ((items g).map Item.line) ++ "\x7d\n" := by
  simp [write, items, Item.line, Function.comp_def]
  rfl

/-- The written form does not depend on numbers and annotations. -/
theorem write_congr {g h : FlowGraph} (same : g.same h = true) (name : g.name = h.name)
    (attrs : g.attrs = h.attrs) : write g = write h := by
  have contents : g.contents = h.contents := by simpa [FlowGraph.same] using same
  simp only [FlowGraph.contents, Prod.mk.injEq] at contents
  obtain ⟨nodes, -, edges⟩ := contents
  have items : items g = items h := by
    have nodeItems := congrArg (List.map fun text => Item.node text.1 text.2) nodes
    have edgeItems := congrArg (List.map fun text => Item.edge text.1 text.2.1 text.2.2) edges
    rw [List.map_map, List.map_map] at nodeItems edgeItems
    simp only [Dot.items, attrs]
    exact congrArg₂ (· ++ ·) (congrArg _ nodeItems) edgeItems
  rw [write_eq, write_eq, items, name]

/-! ## Tokens -/

def entryTokens (entry : String × String) : List Token :=
  [idToken entry.1, .equals, idToken entry.2]

/-- The tokens of an attribute list; none if there are no attributes. -/
def listTokens (attrs : AttrMap) : List Token :=
  if attrs.isEmpty then []
  else .leftBracket :: [Token.comma].intercalate (attrs.entries.map entryTokens) ++ [.rightBracket]

def Item.tokens : Item → List Token
  | attr key value => entryTokens (key, value)
  | node label attrs => idToken label :: listTokens attrs
  | edge source target attrs => idToken source :: .arrow :: idToken target :: listTokens attrs

/-- No key and no value begins with a blank beyond ASCII. -/
def SolidEntries (entries : List (String × String)) : Prop :=
  ∀ entry ∈ entries, Solid entry.1 ∧ Solid entry.2

instance (entries : List (String × String)) : Decidable (SolidEntries entries) :=
  inferInstanceAs (Decidable (∀ entry ∈ entries, _))

/-- No text of an item does. -/
def Item.Solid : Item → Prop
  | attr key value => Dot.Solid key ∧ Dot.Solid value
  | node label attrs => Dot.Solid label ∧ SolidEntries attrs.entries
  | edge source target attrs => Dot.Solid source ∧ Dot.Solid target ∧ SolidEntries attrs.entries

variable {rest : List Char}

theorem stops_cons {c : Char} (no : isWordChar c = false ∧ c ≠ '.') (rest : List Char) :
    Stops (c :: rest) := by
  rintro d ⟨⟩
  exact no

theorem cuts_entry {entry : String × String} (solid : Solid entry.1 ∧ Solid entry.2)
    (stops : Stops rest) : Cuts ((entryText entry).toList ++ rest) (entryTokens entry) rest := by
  have text : (entryText entry).toList ++ rest =
      (quote entry.1).toList ++ '=' :: ((quote entry.2).toList ++ rest) := by
    simp [entryText]
  rw [text]
  have key := Cuts.id solid.1
    fun _ => stops_cons (c := '=') (by decide) ((quote entry.2).toList ++ rest)
  exact key.trans ((Cuts.mark rfl _).trans (Cuts.id solid.2 fun _ => stops))

theorem cuts_entries {entries : List (String × String)} (solid : SolidEntries entries)
    (filled : entries ≠ []) :
    Cuts ((", ".intercalate (entries.map entryText)).toList ++ ']' :: rest)
      ([Token.comma].intercalate (entries.map entryTokens) ++ [.rightBracket]) rest := by
  induction entries with
  | nil => exact absurd rfl filled
  | cons entry entries ih =>
    obtain ⟨first, others⟩ := List.forall_mem_cons.mp solid
    cases entries with
    | nil =>
      have last := cuts_entry first (stops_cons (c := ']') (by decide) rest)
      simpa using last.trans (Cuts.mark rfl rest)
    | cons next entries =>
      have text : (", ".intercalate ((entry :: next :: entries).map entryText)).toList ++ ']' :: rest =
          (entryText entry).toList ++ ',' :: ' ' ::
            ((", ".intercalate ((next :: entries).map entryText)).toList ++ ']' :: rest) := by
        simp [String.toList_intercalate]
      have tokens : [Token.comma].intercalate ((entry :: next :: entries).map entryTokens) ++
          [.rightBracket] = entryTokens entry ++ ([.comma] ++ ([] ++ ([Token.comma].intercalate
            ((next :: entries).map entryTokens) ++ [.rightBracket]))) := by
        rw [List.map_cons, List.map_cons, List.intercalate_cons_cons]
        simp
      rw [text, tokens]
      exact (cuts_entry first (stops_cons (by decide) _)).trans ((Cuts.mark rfl _).trans
        ((Cuts.blank rfl _).trans (ih others (List.cons_ne_nil _ _))))

theorem cuts_list {attrs : AttrMap} (solid : SolidEntries attrs.entries) :
    Cuts ((listText attrs).toList ++ rest) (listTokens attrs) rest := by
  by_cases empty : attrs.isEmpty = true
  · rw [listText, listTokens, if_pos empty, if_pos empty]
    exact Cuts.refl rest
  · have text : (listText attrs).toList ++ rest = ' ' :: '[' ::
        ((", ".intercalate (attrs.entries.map entryText)).toList ++ ']' :: rest) := by
      simp [listText, empty]
    rw [text, listTokens, if_neg empty]
    have filled : attrs.entries ≠ [] := by simpa [AttrMap.isEmpty] using empty
    exact (Cuts.blank rfl _).trans ((Cuts.mark rfl _).trans (cuts_entries solid filled))

/-- A list begins with a blank, so an id before it is not gone on with. -/
theorem stops_list (attrs : AttrMap) (stops : Stops rest) :
    Stops ((listText attrs).toList ++ rest) := by
  by_cases empty : attrs.isEmpty = true
  · rw [listText, if_pos empty]
    exact stops
  · have text : (listText attrs).toList ++ rest = ' ' :: '[' ::
        ((", ".intercalate (attrs.entries.map entryText)).toList ++ ']' :: rest) := by
      simp [listText, empty]
    rw [text]
    exact stops_cons (by decide) _

namespace Item

theorem cuts {item : Item} (solid : item.Solid) (stops : Stops rest) :
    Cuts (item.text.toList ++ rest) item.tokens rest := by
  cases item with
  | attr key value => exact cuts_entry solid stops
  | node label attrs =>
    have text : (node label attrs).text.toList ++ rest =
        (quote label).toList ++ ((listText attrs).toList ++ rest) := by
      simp [Item.text]
    rw [text]
    exact (Cuts.id solid.1 fun _ => stops_list attrs stops).trans (cuts_list solid.2)
  | edge source target attrs =>
    have text : (edge source target attrs).text.toList ++ rest = (quote source).toList ++
        ' ' :: '-' :: '>' :: ' ' :: ((quote target).toList ++ ((listText attrs).toList ++ rest)) := by
      simp [Item.text]
    rw [text]
    obtain ⟨sourceSolid, targetSolid, attrsSolid⟩ := solid
    have arrow (text : List Char) : Cuts (' ' :: '-' :: '>' :: ' ' :: text) [.arrow] text :=
      (Cuts.blank rfl _).trans ((Cuts.arrow _).trans (Cuts.blank rfl _))
    exact (Cuts.id sourceSolid fun _ => stops_cons (by decide) _).trans ((arrow _).trans
      ((Cuts.id targetSolid fun _ => stops_list attrs stops).trans (cuts_list attrsSolid)))

/-- A line ends with a semicolon of its own. -/
theorem cuts_line {item : Item} (solid : item.Solid) :
    Cuts (item.line.toList ++ rest) (item.tokens ++ [.semicolon]) rest := by
  have text : item.line.toList ++ rest =
      ' ' :: ' ' :: ' ' :: ' ' :: (item.text.toList ++ ';' :: '\n' :: rest) := by
    simp [Item.line]
  rw [text]
  have here := cuts solid (stops_cons (c := ';') (by decide) ('\n' :: rest))
  have blanks (text : List Char) : Cuts (' ' :: ' ' :: ' ' :: ' ' :: text) [] text :=
    (Cuts.blank rfl _).trans ((Cuts.blank rfl _).trans ((Cuts.blank rfl _).trans (Cuts.blank rfl _)))
  exact (blanks _).trans (here.trans ((Cuts.mark rfl _).trans (Cuts.blank rfl _)))

theorem cuts_lines {items : List Item} (solid : ∀ item ∈ items, item.Solid) :
    Cuts ((String.join (items.map line)).toList ++ rest)
      (items.flatMap fun item => item.tokens ++ [.semicolon]) rest := by
  induction items with
  | nil => exact Cuts.refl rest
  | cons item items ih =>
    obtain ⟨first, others⟩ := List.forall_mem_cons.mp solid
    have text : (String.join ((item :: items).map line)).toList ++ rest =
        item.line.toList ++ ((String.join (items.map line)).toList ++ rest) := by
      simp
    rw [text, List.flatMap_cons]
    exact (cuts_line first).trans (ih others)

end Item

/-- The tokens before the first line. -/
def headTokens (name : String) : List Token :=
  if name.isEmpty then [.id "digraph" false, .leftBrace]
  else [.id "digraph" false, idToken name, .leftBrace]

theorem cuts_digraph (rest : List Char) :
    Cuts ("digraph ".toList ++ rest) [.id "digraph" false] rest := by
  have text : "digraph ".toList ++ rest =
      'd' :: (['i', 'g', 'r', 'a', 'p', 'h'] ++ ' ' :: rest) := by
    simp
  have word (line : Nat) : nextToken line ('d' :: (['i', 'g', 'r', 'a', 'p', 'h'] ++ ' ' :: rest)) =
      .ok (.id "digraph" false, line, ' ' :: rest) :=
    nextToken_word rfl (List.all_eq_true.mp rfl) (stops_cons (by decide) rest).word line
  rw [text]
  exact (Cuts.token rfl (by decide) (by decide) (by simp) fun line => ⟨line, word line⟩).trans
    (Cuts.blank rfl rest)

theorem cuts_head {name : String} (solid : Solid name) :
    Cuts ((headText name).toList ++ rest) (headTokens name) rest := by
  have brace (text : List Char) : Cuts ('\x7b' :: '\n' :: text) [.leftBrace] text :=
    (Cuts.mark rfl _).trans (Cuts.blank rfl _)
  by_cases unnamed : name.isEmpty = true
  · rw [headText, headTokens, if_pos unnamed, if_pos unnamed]
    exact (cuts_digraph _).trans (brace rest)
  · have text : (headText name).toList ++ rest =
        "digraph ".toList ++ ((quote name).toList ++ ' ' :: '\x7b' :: '\n' :: rest) := by
      simp [headText, unnamed]
    rw [text, headTokens, if_neg unnamed]
    exact (cuts_digraph _).trans ((Cuts.id solid fun _ => stops_cons (by decide) _).trans
      ((Cuts.blank rfl _).trans (brace rest)))

/-- What the whole text of a graph is cut into. -/
theorem lexemes_write {g : FlowGraph} (name : Solid g.name) (solid : ∀ item ∈ items g, item.Solid) :
    ∃ made, lexemes (write g) = .ok made ∧ made.map Lexeme.token =
      headTokens g.name ++ ((items g).flatMap (fun item => item.tokens ++ [.semicolon]) ++
        [.rightBrace]) := by
  refine Cuts.lexemes ?_
  have text : (write g).toList = (headText g.name).toList ++
      ((String.join ((items g).map Item.line)).toList ++ '\x7d' :: '\n' :: []) := by
    simp [write_eq]
  rw [text]
  exact (cuts_head name).trans ((Item.cuts_lines solid).trans
    ((Cuts.mark rfl _).trans (Cuts.blank rfl [])))

end ControlFlow.Dot
