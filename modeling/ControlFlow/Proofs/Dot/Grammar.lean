import ControlFlow.Proofs.Dot.Documents
import ControlFlow.Proofs.Dot.Ids

/-! The language of DOT texts. A text is put together of ids, attribute lists and statements; its
tree keeps what reading forgets, which ids stand in quotes and where a separator stands. What a
tree spells is read as the tree means it. Lines are told apart from statements, since they are kept
for faults only. -/
namespace ControlFlow.Dot

/-! ## Trees -/

/-- An id as it stands in a text: bare, or in quotes, in one piece or in several with a plus between
them. -/
inductive Spelling where
  | bare (text : String)
  | quoted (first : String) (more : List String)
deriving DecidableEq

namespace Spelling

/-- The id that is meant. -/
def text : Spelling → String
  | bare text => text
  | quoted first more => more.foldl (· ++ ·) first

def tokens : Spelling → List Token
  | bare text => [.id text false]
  | quoted first more => .id first true :: more.flatMap fun piece => [.plus, .id piece true]

/-- A word of the language without quotes, however it is capitalised. -/
def IsWord (word : String) : Spelling → Prop
  | bare text => lowerAscii text = word
  | quoted _ _ => False

/-- Any of the reserved words without quotes. -/
def Reserved (s : Spelling) : Prop := ∃ word ∈ keywords, s.IsWord word

/-- The same id in quotes. -/
def inQuotes (s : Spelling) : Spelling := quoted s.text []

/-- An id as it is written: bare where it can be. -/
def ofId (s : String) : Spelling := if isBare s then bare s else quoted s []

end Spelling

/-- What can stand behind an entry of an attribute list. -/
inductive Separator where
  | none
  | comma
  | semicolon
deriving DecidableEq

def Separator.tokens : Separator → List Token
  | none => []
  | comma => [.comma]
  | semicolon => [.semicolon]

/-- An entry as it stands in an attribute list. -/
structure WrittenEntry where
  key : Spelling
  value : Spelling
  separator : Separator
deriving DecidableEq

namespace WrittenEntry

def entry (e : WrittenEntry) : String × String := (e.key.text, e.value.text)

def tokens (e : WrittenEntry) : List Token :=
  e.key.tokens ++ .equals :: e.value.tokens ++ e.separator.tokens

end WrittenEntry

/-- Attribute lists, one behind the other. -/
abbrev Lists := List (List WrittenEntry)

namespace Lists

def entries (lists : Lists) : Entries := lists.flatMap (·.map WrittenEntry.entry)

def tokens (lists : Lists) : List Token :=
  lists.flatMap fun list => .leftBracket :: (list.flatMap WrittenEntry.tokens ++ [.rightBracket])

end Lists

/-- A statement as it stands in a text. -/
inductive Clause where
  | defaults (subject : Subject) (word : String) (lists : Lists)
  | assign (key value : Spelling)
  | node (label : Spelling) (lists : Lists)
  | chain (first : Spelling) (others : List Spelling) (lists : Lists)
deriving DecidableEq

namespace Clause

def tokens : Clause → List Token
  | defaults _ word lists => .id word false :: lists.tokens
  | assign key value => key.tokens ++ .equals :: value.tokens
  | node label lists => label.tokens ++ lists.tokens
  | chain first others lists =>
    first.tokens ++ (others.flatMap fun label => .arrow :: label.tokens) ++ lists.tokens

/-- The statement that is meant, apart from its line. -/
def statement : Clause → Statement
  | defaults subject _ lists => .defaults subject lists.entries
  | assign key value => .assign key.text value.text
  | node label lists => .node label.text lists.entries
  | chain first others lists => .chain 0 first.text (others.map Spelling.text) lists.entries

/-- Defaults begin with the word for their subject and have a list, a chain has an arrow. -/
def Shaped : Clause → Prop
  | defaults subject word lists => lowerAscii word = subject.keyword ∧ lists ≠ []
  | assign _ _ | node _ _ => True
  | chain _ others _ => others ≠ []

/-- The id at the head of a statement, if an id stands there. -/
def head? : Clause → Option Spelling
  | defaults _ _ _ => none
  | assign key _ => some key
  | node label _ => some label
  | chain first _ _ => some first

/-- The ids behind arrows. -/
def targets : Clause → List Spelling
  | chain _ others _ => others
  | _ => []

end Clause

/-- A whole text. Where no statement stands in its body there is a semicolon. -/
structure Script where
  strict : Option String
  word : String
  name : Option Spelling
  body : List (Option Clause)
deriving DecidableEq

namespace Script

def clauses (script : Script) : List Clause := script.body.filterMap id

/-- What stands between the braces. -/
def bodyTokens (body : List (Option Clause)) : List Token :=
  body.flatMap fun clause? => clause?.elim [.semicolon] Clause.tokens

def tokens (script : Script) : List Token :=
  (script.strict.elim [] fun word => [.id word false]) ++ .id script.word false ::
    (script.name.elim [] Spelling.tokens ++ .leftBrace ::
      (bodyTokens script.body ++ [.rightBrace]))

/-- What is meant, apart from lines. -/
def outline (script : Script) : Outline where
  strict := script.strict.isSome
  name := script.name.elim "" Spelling.text
  body := ⟨script.clauses.map Clause.statement, none⟩

/-- The words in front are those of the language, and each statement is put together as such. -/
structure Shaped (script : Script) : Prop where
  strict : ∀ word ∈ script.strict, lowerAscii word = "strict"
  word : lowerAscii script.word = "digraph"
  clauses : ∀ clause ∈ script.clauses, clause.Shaped

end Script

/-- Which words a statement cannot be read with: a reserved one at its head, and behind an arrow the
one that begins a subgraph. -/
structure Clause.Readable (clause : Clause) : Prop where
  head : ∀ s ∈ clause.head?, ¬s.Reserved
  targets : ∀ s ∈ clause.targets, ¬s.IsWord "subgraph"

variable {α : Type} (final : Nat) {s : Spelling} {more : List Token} {lexemes : List Lexeme}

/-! ## Ids -/

/-- A reader takes tokens to a value and leaves the others. -/
def Takes (read : List Lexeme → Except ReadError (α × List Lexeme)) (tokens : List Token) (a : α)
    (more : List Token) : Prop :=
  ∀ lexemes, lexemes.map Lexeme.token = tokens →
    ∃ rest, read lexemes = .ok (a, rest) ∧ rest.map Lexeme.token = more

namespace Spelling

theorem exists_tokens_eq (s : Spelling) : ∃ text quoted more, s.tokens = .id text quoted :: more := by
  cases s <;> exact ⟨_, _, _, rfl⟩

theorem length_tokens_pos (s : Spelling) : 0 < s.tokens.length := by
  obtain ⟨text, quoted, more, tokens⟩ := s.exists_tokens_eq
  simp [tokens]

theorem reserved_bare (text : String) : (bare text).Reserved ↔ isKeyword text = true := by
  simp [Reserved, IsWord, isKeyword]

theorem not_reserved_quoted (first : String) (more : List String) :
    ¬(quoted first more).Reserved := by
  simp [Reserved, IsWord]

@[simp] theorem text_ofId (s : String) : (ofId s).text = s := by
  rw [ofId]
  split <;> rfl

theorem tokens_ofId (s : String) : (ofId s).tokens = [idToken s] := by
  rw [ofId, idToken]
  cases isBare s <;> rfl

theorem not_reserved_ofId (s : String) : ¬(ofId s).Reserved := by
  rw [ofId]
  split
  · next isBare =>
    rw [reserved_bare, Bool.not_eq_true]
    rw [Dot.isBare, Bool.and_eq_true, Bool.not_eq_true'] at isBare
    exact isBare.1
  · exact not_reserved_quoted s []

theorem not_isWord_of_not_reserved {s : Spelling} (free : ¬s.Reserved) {word : String}
    (known : word ∈ keywords) : ¬s.IsWord word :=
  fun same => free ⟨word, known, same⟩

theorem isWord_iff (s : Spelling) (word : String) (more : List Token) :
    s.IsWord word ↔ ((s.tokens ++ more).head?.any (Token.isWord word)) = true := by
  cases s <;> simp [IsWord, tokens, Token.isWord]

end Spelling

theorem takes_joinQuoted (line : Nat) (text : String) (pieces : List String)
    (alone : more.head? ≠ some .plus) :
    Takes (joinQuoted line text) ((pieces.flatMap fun piece => [.plus, .id piece true]) ++ more)
      (pieces.foldl (· ++ ·) text) more := by
  induction pieces generalizing text with
  | nil =>
    intro lexemes tokens
    refine ⟨lexemes, ?_, tokens⟩
    cases lexemes with
    | nil => rfl
    | cons next rest =>
      obtain ⟨token, line⟩ := next
      rw [List.flatMap_nil, List.nil_append] at tokens
      rw [← tokens] at alone
      cases token <;> first | rfl | exact absurd rfl alone
  | cons piece pieces ih =>
    intro lexemes tokens
    obtain ⟨⟨joint, jointLine⟩, behind, rfl, rfl, left⟩ := List.map_eq_cons_iff.mp tokens
    obtain ⟨⟨token, pieceLine⟩, rest, rfl, rfl, tail⟩ := List.map_eq_cons_iff.mp left
    exact ih (text ++ piece) rest tail

theorem takes_readId (s : Spelling) (alone : more.head? ≠ some .plus) :
    Takes (readId final) (s.tokens ++ more) s.text more := by
  intro lexemes tokens
  cases s with
  | bare text =>
    obtain ⟨⟨token, line⟩, rest, rfl, rfl, left⟩ := List.map_eq_cons_iff.mp tokens
    exact ⟨rest, rfl, left⟩
  | quoted first pieces =>
    obtain ⟨⟨token, line⟩, rest, rfl, rfl, left⟩ := List.map_eq_cons_iff.mp tokens
    exact takes_joinQuoted line first pieces alone rest left

/-! ## Attribute lists -/

/-- A token that ends an entry without a separator: the head of the next entry, or the closing
bracket. -/
def Token.EndsEntry : Token → Prop
  | id _ _ | rightBracket => True
  | _ => False

theorem takes_readEntry (e : WrittenEntry) (ends : ∀ t ∈ more.head?, t.EndsEntry) :
    Takes (readEntry final) (e.tokens ++ more) e.entry more := by
  intro lexemes tokens
  rw [WrittenEntry.tokens, List.append_assoc, List.append_assoc, List.cons_append] at tokens
  obtain ⟨behind, key, left⟩ := takes_readId final e.key (by simp) lexemes tokens
  obtain ⟨⟨token, line⟩, middle, rfl, rfl, right⟩ := List.map_eq_cons_iff.mp left
  have alone : (e.separator.tokens ++ more).head? ≠ some .plus := by
    intro plus
    cases same : e.separator <;> simp only [same, Separator.tokens] at plus <;>
      first | exact ends _ plus | cases plus
  obtain ⟨rest, value, tail⟩ := takes_readId final e.value alone middle right
  refine ⟨skipSeparator rest, ?_, ?_⟩
  · rw [readEntry, key, ok_bind]
    simp only
    rw [value, ok_bind]
    rfl
  · cases same : e.separator with
    | none =>
      rw [same] at tail
      cases rest with
      | nil => exact tail
      | cons next rest =>
        obtain ⟨token, line⟩ := next
        obtain rfl : token :: rest.map Lexeme.token = more := tail
        have last := ends token rfl
        cases token <;> first | rfl | exact last.elim
    | comma =>
      rw [same] at tail
      obtain ⟨⟨token, line⟩, rest, rfl, rfl, left⟩ := List.map_eq_cons_iff.mp tail
      exact left
    | semicolon =>
      rw [same] at tail
      obtain ⟨⟨token, line⟩, rest, rfl, rfl, left⟩ := List.map_eq_cons_iff.mp tail
      exact left

theorem readListsWithin_outside (ends : (lexemes.map Lexeme.token).head? ≠ some .leftBracket)
    (bound : Nat) : readListsWithin final bound false lexemes = .ok ([], lexemes) := by
  cases bound with
  | zero => rfl
  | succ bound =>
    cases lexemes with
    | nil => rfl
    | cons lexeme rest =>
      obtain ⟨token, line⟩ := lexeme
      cases token <;> first | rfl | exact absurd rfl ends

theorem endsEntry_list (list : List WrittenEntry) (tail : List Token) :
    ∀ t ∈ (list.flatMap WrittenEntry.tokens ++ .rightBracket :: tail).head?, t.EndsEntry := by
  intro t first
  cases list with
  | nil =>
    cases first
    trivial
  | cons e list =>
    obtain ⟨text, quoted, more, tokens⟩ := e.key.exists_tokens_eq
    rw [List.flatMap_cons, WrittenEntry.tokens, tokens] at first
    cases first
    trivial

/-- The rest of a list is read to its bracket, and then what follows the bracket. -/
theorem takes_list {list : List WrittenEntry} {others : Entries} {tail : List Token} {need : Nat}
    (outside : ∀ left, need ≤ left → Takes (readListsWithin final left false) tail others more)
    {bound : Nat} (enough : (list.flatMap WrittenEntry.tokens).length + need < bound) :
    Takes (readListsWithin final bound true)
      (list.flatMap WrittenEntry.tokens ++ .rightBracket :: tail)
      (list.map WrittenEntry.entry ++ others) more := by
  induction list generalizing bound with
  | nil =>
    intro lexemes tokens
    obtain ⟨bound, rfl⟩ := Nat.exists_eq_add_one.mpr (Nat.zero_lt_of_lt enough)
    obtain ⟨⟨token, line⟩, rest, rfl, rfl, left⟩ := List.map_eq_cons_iff.mp tokens
    exact outside bound (by simpa [Nat.lt_succ_iff] using enough) rest left
  | cons e list ih =>
    intro lexemes tokens
    obtain ⟨bound, rfl⟩ := Nat.exists_eq_add_one.mpr (Nat.zero_lt_of_lt enough)
    rw [List.flatMap_cons, List.append_assoc] at tokens
    obtain ⟨behind, first, left⟩ :=
      takes_readEntry final e (endsEntry_list list tail) lexemes tokens
    obtain ⟨text, quoted, others', head⟩ := e.key.exists_tokens_eq
    have fewer : (list.flatMap WrittenEntry.tokens).length + need < bound := by
      rw [List.flatMap_cons, WrittenEntry.tokens, head] at enough
      simp only [List.length_append, List.length_cons] at enough
      omega
    obtain ⟨rest, read, right⟩ := ih fewer behind left
    refine ⟨rest, ?_, right⟩
    -- Inside a list, what does not close it is an entry.
    rw [WrittenEntry.tokens, head] at tokens
    obtain ⟨⟨token, line⟩, later, rfl, rfl, -⟩ := List.map_eq_cons_iff.mp tokens
    rw [readListsWithin, first, ok_bind]
    · simp only
      rw [read, ok_bind]
      rfl
    all_goals simp

theorem takes_lists (lists : Lists) (ends : more.head? ≠ some .leftBracket) {bound : Nat}
    (enough : lists.tokens.length ≤ bound) :
    Takes (readListsWithin final bound false) (lists.tokens ++ more) lists.entries more := by
  induction lists generalizing bound with
  | nil =>
    intro lexemes tokens
    exact ⟨lexemes, readListsWithin_outside final (tokens ▸ ends) bound, tokens⟩
  | cons list lists ih =>
    intro lexemes tokens
    have split : Lists.tokens (list :: lists) = .leftBracket :: (list.flatMap WrittenEntry.tokens ++
        .rightBracket :: Lists.tokens lists) := by
      simp [Lists.tokens]
    rw [split] at tokens enough
    simp only [List.length_cons, List.length_append] at enough
    obtain ⟨bound, rfl⟩ : ∃ less, bound = less + 1 := ⟨bound - 1, by omega⟩
    simp only [List.cons_append, List.append_assoc] at tokens
    obtain ⟨⟨token, line⟩, inside, rfl, rfl, left⟩ := List.map_eq_cons_iff.mp tokens
    exact takes_list final (fun _ => ih) (by omega) inside left

theorem takes_readLists (lists : Lists) (ends : more.head? ≠ some .leftBracket) :
    Takes (readLists final) (lists.tokens ++ more) lists.entries more := by
  intro lexemes tokens
  have enough : lists.tokens.length ≤ lexemes.length + 1 := by
    have count := congrArg List.length tokens
    rw [List.length_map, List.length_append] at count
    omega
  exact takes_lists final lists ends enough lexemes tokens

/-! ## Statements -/

theorem tokenAt_eq (lexemes : List Lexeme) :
    tokenAt lexemes = (lexemes.map Lexeme.token).head? := by
  cases lexemes <;> rfl

/-- A token that cannot go on with a statement: the head of the next one, a semicolon or the closing
brace. -/
def Token.EndsStatement : Token → Prop
  | id _ _ | semicolon | rightBrace => True
  | _ => False

theorem takes_chain (others : List Spelling) (free : ∀ s ∈ others, ¬s.IsWord "subgraph")
    (ends : more.head? ≠ some .plus ∧ more.head? ≠ some .arrow) {bound : Nat}
    (enough : others.length ≤ bound) :
    Takes (readChainWithin final bound) ((others.flatMap fun label => .arrow :: label.tokens) ++ more)
      (others.map Spelling.text) more := by
  induction others generalizing bound with
  | nil =>
    intro lexemes tokens
    refine ⟨lexemes, ?_, tokens⟩
    rw [← show lexemes.map Lexeme.token = more from tokens, ← tokenAt_eq] at ends
    unfold readChainWithin
    split
    · exact absurd rfl ends.2
    · rfl
  | cons label others ih =>
    intro lexemes tokens
    obtain ⟨free, others'⟩ := List.forall_mem_cons.mp free
    obtain ⟨bound, rfl⟩ := Nat.exists_eq_add_one.mpr (Nat.zero_lt_of_lt enough)
    rw [List.flatMap_cons, List.append_assoc, List.cons_append] at tokens
    obtain ⟨⟨token, line⟩, behind, rfl, rfl, left⟩ := List.map_eq_cons_iff.mp tokens
    have alone : ((others.flatMap fun label => Token.arrow :: label.tokens) ++ more).head? ≠
        some .plus := by
      cases others with
      | nil => exact ends.1
      | cons next others => simp
    obtain ⟨middle, read, right⟩ := takes_readId final label alone behind left
    obtain ⟨rest, labels, tail⟩ := ih others' (Nat.le_of_succ_le_succ enough) middle right
    have noSubgraph : (tokenAt behind).any Token.startsSubgraph = false := by
      rw [tokenAt_eq, left]
      rw [label.isWord_iff "subgraph"
        ((others.flatMap fun label => Token.arrow :: label.tokens) ++ more)] at free
      obtain ⟨text, quoted, more', head⟩ := label.exists_tokens_eq
      simp only [head, List.cons_append, List.head?_cons, Option.any_some] at free ⊢
      rw [Token.startsSubgraph, Bool.eq_false_iff.mpr free]
      rfl
    refine ⟨rest, ?_, tail⟩
    rw [readChainWithin, noSubgraph]
    simp only [Bool.false_eq_true, if_false]
    rw [read, ok_bind]
    simp only
    rw [labels, ok_bind]
    rfl

/-- A statement whose head is an id goes on behind it. -/
theorem readStatement_head (alone : more.head? ≠ some .plus) (free : ¬s.Reserved)
    (tokens : lexemes.map Lexeme.token = s.tokens ++ more) :
    ∃ line rest, readStatement final lexemes = readAfterId final line s.text rest ∧
      rest.map Lexeme.token = more := by
  obtain ⟨rest, read, tail⟩ := takes_readId final s alone lexemes tokens
  have noWord (word : String) (known : word ∈ keywords) : ¬s.IsWord word :=
    Spelling.not_isWord_of_not_reserved free known
  cases s with
  | bare text =>
    obtain ⟨⟨token, line⟩, behind, rfl, rfl, left⟩ := List.map_eq_cons_iff.mp tokens
    have isWord (word : String) (known : word ∈ keywords) :
        (Token.id text false).isWord word = false := by
      rw [Token.isWord, beq_eq_false_iff_ne]
      exact noWord word known
    have noSubgraph : (Token.id text false).startsSubgraph = false := by
      rw [Token.startsSubgraph, isWord _ (by decide)]
      rfl
    have noSubject : (Token.id text false).subject? = none := by
      rw [Token.subject?, List.find?_eq_none]
      intro subject _
      rw [isWord _ (by cases subject <;> decide)]
      exact Bool.false_ne_true
    have notKeyword : isKeyword text = false :=
      Bool.eq_false_iff.mpr fun known => free ((Spelling.reserved_bare text).mpr known)
    refine ⟨line, behind, ?_, left⟩
    simp only [readStatement, noSubgraph, noSubject, notKeyword, Bool.false_eq_true, if_false]
    rfl
  | quoted first pieces =>
    obtain ⟨⟨token, line⟩, behind, rfl, rfl, left⟩ := List.map_eq_cons_iff.mp tokens
    have noSubgraph : (Token.id first true).startsSubgraph = false := rfl
    have noSubject : (Token.id first true).subject? = none := rfl
    refine ⟨line, rest, ?_, tail⟩
    simp only [readStatement, noSubgraph, noSubject, Bool.false_eq_true, if_false, read, ok_bind]

theorem readStatement_defaults {subject : Subject} {word : String} {lists : Lists}
    (known : lowerAscii word = subject.keyword) (filled : lists ≠ [])
    (ends : more.head? ≠ some .leftBracket)
    (tokens : lexemes.map Lexeme.token = .id word false :: (lists.tokens ++ more)) :
    ∃ rest, readStatement final lexemes = .ok (.defaults subject lists.entries, rest) ∧
      rest.map Lexeme.token = more := by
  obtain ⟨⟨token, line⟩, behind, rfl, rfl, left⟩ := List.map_eq_cons_iff.mp tokens
  obtain ⟨rest, entries, tail⟩ := takes_readLists final lists ends behind left
  have noSubgraph : (Token.id word false).startsSubgraph = false := by
    have notMark : (Token.id word false == Token.leftBrace) = false := rfl
    rw [Token.startsSubgraph, notMark, Token.isWord, known]
    cases subject <;> decide
  have isSubject : (Token.id word false).subject? = some subject := by
    simp only [Token.subject?, Token.isWord, known]
    cases subject <;> decide
  have bracket : (tokenAt behind == some Token.leftBracket) = true := by
    rw [tokenAt_eq, left]
    cases lists with
    | nil => exact absurd rfl filled
    | cons list lists => simp [Lists.tokens]
  refine ⟨rest, ?_, tail⟩
  simp only [readStatement, noSubgraph, isSubject, bracket, Bool.false_eq_true, if_false, if_true,
    entries, ok_bind]
  rfl

/-- Behind the ids of a statement stands a list or what ends the statement. -/
theorem head?_lists_ne (lists : Lists) (ends : ∀ t ∈ more.head?, t.EndsStatement) {token : Token}
    (other : ¬token.EndsStatement) (notBracket : token ≠ .leftBracket) :
    (lists.tokens ++ more).head? ≠ some token := by
  cases lists with
  | nil => exact fun same => other (ends token same)
  | cons list lists => exact fun same => notBracket (Option.some.inj same).symm

theorem readStatement_assign {key value : Spelling} (free : ¬key.Reserved)
    (alone : more.head? ≠ some .plus)
    (tokens : lexemes.map Lexeme.token = key.tokens ++ .equals :: (value.tokens ++ more)) :
    ∃ rest, readStatement final lexemes = .ok (.assign key.text value.text, rest) ∧
      rest.map Lexeme.token = more := by
  obtain ⟨line, behind, read, left⟩ := readStatement_head final (by simp) free tokens
  obtain ⟨⟨token, equalsLine⟩, middle, rfl, rfl, right⟩ := List.map_eq_cons_iff.mp left
  obtain ⟨rest, value', tail⟩ := takes_readId final value alone middle right
  refine ⟨rest, ?_, tail⟩
  rw [read]
  simp only [readAfterId, tokenAt, List.tail_cons, value', ok_bind]
  rfl

theorem readStatement_node {label : Spelling} {lists : Lists} (free : ¬label.Reserved)
    (ends : ∀ t ∈ more.head?, t.EndsStatement)
    (tokens : lexemes.map Lexeme.token = label.tokens ++ (lists.tokens ++ more)) :
    ∃ rest, readStatement final lexemes = .ok (.node label.text lists.entries, rest) ∧
      rest.map Lexeme.token = more := by
  have other {token : Token} := @head?_lists_ne more lists ends token
  obtain ⟨line, behind, read, left⟩ := readStatement_head final (other id (by simp)) free tokens
  obtain ⟨rest, entries, tail⟩ := takes_readLists final lists (fun same => ends _ same) behind left
  refine ⟨rest, ?_, tail⟩
  have next : tokenAt behind = (lists.tokens ++ more).head? := by rw [tokenAt_eq, left]
  rw [read, readAfterId, next]
  split
  · next same => exact absurd same (other id (by simp))
  · next same => exact absurd same (other id (by simp))
  · next same => exact absurd same (other id (by simp))
  · next same => exact absurd same (other id (by simp))
  · rw [entries, ok_bind]
    rfl

theorem readStatement_chain {first : Spelling} {others : List Spelling} {lists : Lists}
    (free : ¬first.Reserved) (targets : ∀ s ∈ others, ¬s.IsWord "subgraph") (filled : others ≠ [])
    (ends : ∀ t ∈ more.head?, t.EndsStatement)
    (tokens : lexemes.map Lexeme.token = first.tokens ++
      ((others.flatMap fun label => Token.arrow :: label.tokens) ++ (lists.tokens ++ more))) :
    ∃ line rest, readStatement final lexemes =
        .ok (.chain line first.text (others.map Spelling.text) lists.entries, rest) ∧
      rest.map Lexeme.token = more := by
  have other {token : Token} := @head?_lists_ne more lists ends token
  have arrow : ((others.flatMap fun label => Token.arrow :: label.tokens) ++
      (lists.tokens ++ more)).head? = some .arrow := by
    cases others with
    | nil => exact absurd rfl filled
    | cons label others => rfl
  obtain ⟨line, behind, read, left⟩ := readStatement_head final (by simp [arrow]) free tokens
  have enough : others.length ≤ behind.length := by
    have count := congrArg List.length left
    have each : others.length ≤ (others.flatMap fun label => Token.arrow :: label.tokens).length := by
      rw [List.length_flatMap]
      exact (others.length_map _).ge.trans (List.length_le_sum_of_one_le _ (by simp))
    rw [List.length_map, List.length_append] at count
    omega
  obtain ⟨middle, labels, right⟩ := takes_chain final others targets
    ⟨other id (by simp), other id (by simp)⟩ enough behind left
  obtain ⟨rest, entries, tail⟩ := takes_readLists final lists (fun same => ends _ same) middle right
  refine ⟨line, rest, ?_, tail⟩
  have noPort : (tokenAt middle == some Token.colon) = false := by
    rw [tokenAt_eq, right, beq_eq_false_iff_ne]
    exact other id (by simp)
  have next : tokenAt behind = some .arrow := by rw [tokenAt_eq, left, arrow]
  rw [read]
  simp only [readAfterId, next, labels, ok_bind, noPort, entries, Bool.false_eq_true, if_false]
  rfl

/-- What a clause spells is read as the statement that it means. -/
theorem readStatement_clause {clause : Clause} (shaped : clause.Shaped) (readable : clause.Readable)
    (ends : ∀ t ∈ more.head?, t.EndsStatement)
    (tokens : lexemes.map Lexeme.token = clause.tokens ++ more) :
    ∃ statement rest, readStatement final lexemes = .ok (statement, rest) ∧
      statement.atLine 0 = clause.statement ∧ rest.map Lexeme.token = more := by
  cases clause with
  | defaults subject word lists =>
    obtain ⟨known, filled⟩ := shaped
    obtain ⟨rest, read, tail⟩ :=
      readStatement_defaults final known filled (fun same => ends _ same) tokens
    exact ⟨_, rest, read, rfl, tail⟩
  | assign key value =>
    rw [Clause.tokens, List.append_assoc, List.cons_append] at tokens
    obtain ⟨rest, read, tail⟩ :=
      readStatement_assign final (readable.head key rfl) (fun same => ends _ same) tokens
    exact ⟨_, rest, read, rfl, tail⟩
  | node label lists =>
    rw [Clause.tokens, List.append_assoc] at tokens
    obtain ⟨rest, read, tail⟩ := readStatement_node final (readable.head label rfl) ends tokens
    exact ⟨_, rest, read, rfl, tail⟩
  | chain first others lists =>
    rw [Clause.tokens, List.append_assoc, List.append_assoc] at tokens
    obtain ⟨line, rest, read, tail⟩ := readStatement_chain final (readable.head first rfl)
      readable.targets shaped ends tokens
    exact ⟨_, rest, read, rfl, tail⟩

/-! ## Whole texts -/

theorem Clause.exists_tokens_eq (clause : Clause) :
    ∃ text quoted more, clause.tokens = .id text quoted :: more := by
  cases clause with
  | defaults subject word lists => exact ⟨word, false, _, rfl⟩
  | assign key value =>
    obtain ⟨text, quoted, more, head⟩ := key.exists_tokens_eq
    exact ⟨text, quoted, _, by rw [tokens, head]; rfl⟩
  | node label lists =>
    obtain ⟨text, quoted, more, head⟩ := label.exists_tokens_eq
    exact ⟨text, quoted, _, by rw [tokens, head]; rfl⟩
  | chain first others lists =>
    obtain ⟨text, quoted, more, head⟩ := first.exists_tokens_eq
    exact ⟨text, quoted, _, by rw [tokens, head]; rfl⟩

theorem endsStatement_body (body : List (Option Clause)) :
    ∀ t ∈ (Script.bodyTokens body ++ [Token.rightBrace]).head?, t.EndsStatement := by
  intro t first
  cases body with
  | nil =>
    cases first
    trivial
  | cons clause? body =>
    cases clause? with
    | none =>
      cases first
      trivial
    | some clause =>
      obtain ⟨text, quoted, more, head⟩ := clause.exists_tokens_eq
      rw [Script.bodyTokens, List.flatMap_cons, Option.elim_some, head] at first
      cases first
      trivial

theorem readBodyWithin_body {body : List (Option Clause)}
    (shaped : ∀ clause ∈ body.filterMap id, clause.Shaped)
    (readable : ∀ clause ∈ body.filterMap id, clause.Readable) {bound : Nat}
    (enough : body.length < bound)
    (tokens : lexemes.map Lexeme.token = Script.bodyTokens body ++ [.rightBrace]) :
    ∃ statements, readBodyWithin final bound lexemes = ⟨statements, none⟩ ∧
      statements.map (Statement.atLine 0) = (body.filterMap id).map Clause.statement := by
  induction body generalizing bound lexemes with
  | nil =>
    obtain ⟨bound, rfl⟩ := Nat.exists_eq_add_one.mpr enough
    obtain ⟨⟨token, line⟩, rest, rfl, rfl, last⟩ := List.map_eq_cons_iff.mp tokens
    obtain rfl := List.map_eq_nil_iff.mp last
    exact ⟨[], rfl, rfl⟩
  | cons clause? body ih =>
    obtain ⟨bound, rfl⟩ := Nat.exists_eq_add_one.mpr (Nat.zero_lt_of_lt enough)
    have fewer : body.length < bound := Nat.lt_of_succ_lt_succ enough
    cases clause? with
    | none =>
      obtain ⟨⟨token, line⟩, rest, rfl, rfl, left⟩ := List.map_eq_cons_iff.mp tokens
      obtain ⟨statements, read, same⟩ := ih shaped readable fewer left
      refine ⟨statements, ?_, same⟩
      rw [readBodyWithin, read]
    | some clause =>
      obtain ⟨shaped, shapedOthers⟩ := List.forall_mem_cons.mp shaped
      obtain ⟨readable, readableOthers⟩ := List.forall_mem_cons.mp readable
      have split : lexemes.map Lexeme.token =
          clause.tokens ++ (Script.bodyTokens body ++ [.rightBrace]) := by
        rw [tokens, Script.bodyTokens, List.flatMap_cons, List.append_assoc]
        rfl
      obtain ⟨statement, behind, read, same, left⟩ :=
        readStatement_clause final shaped readable (endsStatement_body body) split
      obtain ⟨statements, others, sameOthers⟩ := ih shapedOthers readableOthers fewer left
      refine ⟨statement :: statements, ?_, ?_⟩
      · obtain ⟨text, quoted, more, head⟩ := clause.exists_tokens_eq
        rw [head] at split
        obtain ⟨⟨token, line⟩, later, rfl, rfl, -⟩ := List.map_eq_cons_iff.mp split
        rw [readBodyWithin]
        · rw [read]
          simp only [others]
        all_goals simp
      · rw [List.map_cons, same, sameOthers]
        rfl

theorem readHeader_script {script : Script} (shaped : script.Shaped)
    (tokens : lexemes.map Lexeme.token = script.tokens) :
    ∃ rest, readHeader final lexemes =
        .ok (script.outline.strict, script.outline.name, rest) ∧
      rest.map Lexeme.token = Script.bodyTokens script.body ++ [.rightBrace] := by
  have isStrict : (tokenAt lexemes).any (Token.isWord "strict") = script.strict.isSome := by
    rw [tokenAt_eq, tokens, Script.tokens]
    cases strict : script.strict with
    | none =>
      simp only [Option.elim_none, List.nil_append, List.head?_cons, Option.any_some, Token.isWord,
        shaped.word]
      decide
    | some word =>
      simp [Token.isWord, shaped.strict word strict]
  have directed : (if script.strict.isSome then lexemes.tail else lexemes).map Lexeme.token =
      .id script.word false :: (script.name.elim [] Spelling.tokens ++ .leftBrace ::
        (Script.bodyTokens script.body ++ [.rightBrace])) := by
    rw [Script.tokens] at tokens
    cases strict : script.strict with
    | none => simpa [strict] using tokens
    | some word => simp [List.map_tail, tokens, strict]
  obtain ⟨⟨token, line⟩, behind, split, rfl, left⟩ := List.map_eq_cons_iff.mp directed
  have digraph : (Token.id script.word false).isWord "digraph" = true := by
    simp [Token.isWord, shaped.word]
  have opened (line : Nat) (rest : List Lexeme) :
      expect final .leftBrace (⟨.leftBrace, line⟩ :: rest) = .ok rest := rfl
  rw [readHeader, isStrict]
  simp only [split, tokenAt, digraph, if_true, List.tail_cons]
  -- Behind the word stands a name or the opening brace.
  cases named : script.name with
  | none =>
    rw [named] at left
    obtain ⟨⟨token, line⟩, rest, rfl, rfl, tail⟩ := List.map_eq_cons_iff.mp left
    refine ⟨rest, ?_, tail⟩
    simp only [opened, ok_bind, Script.outline, named]
    rfl
  | some name =>
    rw [named, Option.elim_some] at left
    obtain ⟨inner, read, right⟩ := takes_readId final name (by simp) behind left
    obtain ⟨text, quoted, others, head⟩ := name.exists_tokens_eq
    rw [head] at left
    obtain ⟨⟨token, nameLine⟩, later, rfl, rfl, -⟩ := List.map_eq_cons_iff.mp left
    obtain ⟨⟨token, braceLine⟩, rest, rfl, rfl, tail⟩ := List.map_eq_cons_iff.mp right
    refine ⟨rest, ?_, tail⟩
    simp only [read, opened, ok_bind, Script.outline, named]
    rfl

/-- What a script spells is read as the outline that it means. -/
theorem ofLexemes_script {script : Script} (shaped : script.Shaped)
    (readable : ∀ clause ∈ script.clauses, clause.Readable)
    (tokens : lexemes.map Lexeme.token = script.tokens) :
    ∃ statements, Outline.ofLexemes lexemes =
        .ok ⟨script.outline.strict, script.outline.name, ⟨statements, none⟩⟩ ∧
      statements.map (Statement.atLine 0) = script.outline.body.statements := by
  obtain ⟨rest, header, left⟩ :=
    readHeader_script ((lexemes.getLast?.map Lexeme.line).getD 1) shaped tokens
  have enough : script.body.length < rest.length + 1 := by
    have count := congrArg List.length left
    have each : script.body.length ≤ (Script.bodyTokens script.body).length := by
      rw [Script.bodyTokens, List.length_flatMap]
      refine (script.body.length_map _).ge.trans (List.length_le_sum_of_one_le _ ?_)
      intro count member
      obtain ⟨clause?, -, rfl⟩ := List.mem_map.mp member
      cases clause? with
      | none => simp
      | some clause =>
        obtain ⟨text, quoted, more, head⟩ := clause.exists_tokens_eq
        simp [head]
    rw [List.length_map, List.length_append, List.length_singleton] at count
    omega
  obtain ⟨statements, body, same⟩ := readBodyWithin_body
    ((lexemes.getLast?.map Lexeme.line).getD 1) shaped.clauses readable enough left
  refine ⟨statements, ?_, same⟩
  rw [Outline.ofLexemes, header, ok_bind]
  simp only [body]
  rfl

end ControlFlow.Dot
