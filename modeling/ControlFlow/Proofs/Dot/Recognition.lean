import ControlFlow.Proofs.Dot.Grammar

/-! What is read is in the language. Each reader takes the tokens of a tree off its lexemes and gives
what the tree means, so a text that is read has a tree: one in which no statement has a bare reserved
word at its head. In every other place a reserved word is read like any id. -/
namespace ControlFlow.Dot

variable {final line bound : Nat} {text : String} {lexemes rest : List Lexeme}

/-! ## Ids -/

theorem exists_pieces {joined : String} (ran : joinQuoted line text lexemes = .ok (joined, rest)) :
    ∃ pieces : List String, joined = pieces.foldl (· ++ ·) text ∧ lexemes.map Lexeme.token =
      (pieces.flatMap fun piece => [.plus, .id piece true]) ++ rest.map Lexeme.token := by
  fun_induction joinQuoted line text lexemes with
  | case1 text plusLine piece pieceLine behind ih =>
    obtain ⟨pieces, rfl, tokens⟩ := ih ran
    exact ⟨piece :: pieces, rfl, by simp [tokens]⟩
  | case2 => cases ran
  | case3 =>
    cases ran
    exact ⟨[], rfl, rfl⟩

theorem exists_spelling (ran : readId final lexemes = .ok (text, rest)) :
    ∃ s : Spelling, s.text = text ∧
      lexemes.map Lexeme.token = s.tokens ++ rest.map Lexeme.token := by
  unfold readId at ran
  split at ran
  · next first line behind =>
    obtain ⟨pieces, rfl, tokens⟩ := exists_pieces ran
    exact ⟨.quoted first pieces, rfl, by simp [Spelling.tokens, tokens]⟩
  · next text line behind =>
    cases ran
    exact ⟨.bare text, rfl, rfl⟩
  · cases ran
  · cases ran

/-! ## Attribute lists -/

theorem exists_separator (lexemes : List Lexeme) : ∃ separator : Separator,
    lexemes.map Lexeme.token =
      separator.tokens ++ (skipSeparator lexemes).map Lexeme.token := by
  unfold skipSeparator
  split
  · exact ⟨.comma, rfl⟩
  · exact ⟨.semicolon, rfl⟩
  · exact ⟨.none, rfl⟩

theorem exists_entry {entry : String × String}
    (ran : readEntry final lexemes = .ok (entry, rest)) :
    ∃ e : WrittenEntry, e.entry = entry ∧
      lexemes.map Lexeme.token = e.tokens ++ rest.map Lexeme.token := by
  obtain ⟨⟨key, behind⟩, keyRead, ran⟩ := bind_eq_ok_iff.mp ran
  obtain ⟨keySpelling, rfl, keyTokens⟩ := exists_spelling keyRead
  simp only at ran
  split at ran
  · next line middle =>
    obtain ⟨⟨value, last⟩, valueRead, ran⟩ := bind_eq_ok_iff.mp ran
    obtain ⟨valueSpelling, rfl, valueTokens⟩ := exists_spelling valueRead
    obtain ⟨separator, separatorTokens⟩ := exists_separator last
    cases ran
    refine ⟨⟨keySpelling, valueSpelling, separator⟩, rfl, ?_⟩
    simp [WrittenEntry.tokens, keyTokens, valueTokens, separatorTokens]
  · cases ran

theorem exists_of_head? {token : Token} (first : (lexemes.map Lexeme.token).head? = some token) :
    ∃ line behind, lexemes = ⟨token, line⟩ :: behind := by
  cases lexemes with
  | nil => cases first
  | cons lexeme behind =>
    cases first
    exact ⟨lexeme.line, behind, rfl⟩

theorem readListsWithin_inside (more : (lexemes.map Lexeme.token).head? ≠ some .rightBracket) :
    readListsWithin final (bound + 1) true lexemes = (do
      let (entry, rest) ← readEntry final lexemes
      let (entries, rest) ← readListsWithin final bound true rest
      pure (entry :: entries, rest)) := by
  rw [readListsWithin]
  rintro line behind rfl
  exact more rfl

/-- Outside a list, lists are read; inside, the rest of one, its bracket and more lists. -/
theorem exists_lists_within {entries : Entries} (enough : lexemes.length < bound) :
    (readListsWithin final bound false lexemes = .ok (entries, rest) →
      ∃ lists : Lists, entries = lists.entries ∧
        lexemes.map Lexeme.token = lists.tokens ++ rest.map Lexeme.token ∧
        ((lexemes.map Lexeme.token).head? = some .leftBracket → lists ≠ [])) ∧
    (readListsWithin final bound true lexemes = .ok (entries, rest) →
      ∃ (list : List WrittenEntry) (lists : Lists),
        entries = list.map WrittenEntry.entry ++ lists.entries ∧
        lexemes.map Lexeme.token = list.flatMap WrittenEntry.tokens ++
          .rightBracket :: (lists.tokens ++ rest.map Lexeme.token)) := by
  induction bound generalizing lexemes entries with
  | zero => exact absurd enough (Nat.not_lt_zero _)
  | succ bound ih =>
    constructor
    · intro ran
      by_cases opens : (lexemes.map Lexeme.token).head? = some .leftBracket
      · obtain ⟨line, behind, rfl⟩ := exists_of_head? opens
        obtain ⟨list, lists, rfl, tokens⟩ := (ih (Nat.lt_of_succ_lt_succ enough)).2 ran
        exact ⟨list :: lists, by simp [Lists.entries], by simp [Lists.tokens, tokens], by simp⟩
      · rw [readListsWithin_outside final opens] at ran
        cases ran
        exact ⟨[], rfl, rfl, fun opens' => absurd opens' opens⟩
    · intro ran
      by_cases closes : (lexemes.map Lexeme.token).head? = some .rightBracket
      · obtain ⟨line, behind, rfl⟩ := exists_of_head? closes
        obtain ⟨lists, rfl, tokens, -⟩ := (ih (Nat.lt_of_succ_lt_succ enough)).1 ran
        exact ⟨[], lists, rfl, by simp [tokens]⟩
      · rw [readListsWithin_inside closes] at ran
        obtain ⟨⟨entry, behind⟩, first, ran⟩ := bind_eq_ok_iff.mp ran
        obtain ⟨⟨entries, last⟩, others, same⟩ := bind_eq_ok_iff.mp ran
        cases same
        obtain ⟨e, rfl, entryTokens⟩ := exists_entry first
        have fewer : behind.length < bound := by
          have count := congrArg List.length entryTokens
          have taken := e.key.length_tokens_pos
          simp only [List.length_map, List.length_append, WrittenEntry.tokens] at count
          omega
        obtain ⟨list, lists, rfl, tokens⟩ := (ih fewer).2 others
        exact ⟨e :: list, lists, rfl, by simp [entryTokens, tokens]⟩

theorem exists_lists {entries : Entries} (ran : readLists final lexemes = .ok (entries, rest)) :
    ∃ lists : Lists, entries = lists.entries ∧
      lexemes.map Lexeme.token = lists.tokens ++ rest.map Lexeme.token ∧
      ((lexemes.map Lexeme.token).head? = some .leftBracket → lists ≠ []) :=
  (exists_lists_within (Nat.lt_succ_self _)).1 ran

/-! ## Statements -/

theorem exists_targets {labels : List String}
    (ran : readChainWithin final bound lexemes = .ok (labels, rest)) :
    ∃ others : List Spelling, labels = others.map Spelling.text ∧
      (∀ s ∈ others, ¬s.IsWord "subgraph") ∧ lexemes.map Lexeme.token =
        (others.flatMap fun label => .arrow :: label.tokens) ++ rest.map Lexeme.token := by
  induction bound generalizing lexemes labels with
  | zero =>
    cases ran
    exact ⟨[], rfl, by simp, rfl⟩
  | succ bound ih =>
    by_cases arrow : (lexemes.map Lexeme.token).head? = some .arrow
    · obtain ⟨line, behind, rfl⟩ := exists_of_head? arrow
      rw [readChainWithin] at ran
      split at ran
      · cases ran
      · next free =>
        obtain ⟨⟨label, middle⟩, first, ran⟩ := bind_eq_ok_iff.mp ran
        obtain ⟨⟨labels, last⟩, later, same⟩ := bind_eq_ok_iff.mp ran
        cases same
        obtain ⟨s, rfl, tokens⟩ := exists_spelling first
        obtain ⟨others, rfl, freeOthers, tokens'⟩ := ih later
        refine ⟨s :: others, rfl, List.forall_mem_cons.mpr ⟨fun word => free ?_, freeOthers⟩, ?_⟩
        · rw [tokenAt_eq, tokens]
          rw [s.isWord_iff "subgraph" (middle.map Lexeme.token)] at word
          obtain ⟨text, quoted, more, head⟩ := s.exists_tokens_eq
          simp only [head, List.cons_append, List.head?_cons, Option.any_some] at word ⊢
          rw [Token.startsSubgraph, word, Bool.or_true]
        · simp [tokens, tokens']
    · have ended : readChainWithin final (bound + 1) lexemes = .ok ([], lexemes) := by
        unfold readChainWithin
        split
        · exact absurd rfl arrow
        · rfl
      rw [ended] at ran
      cases ran
      exact ⟨[], rfl, by simp, rfl⟩

/-- A chain has a label behind its first arrow. -/
theorem labels_ne_nil (arrow : (lexemes.map Lexeme.token).head? = some .arrow)
    {labels : List String}
    (ran : readChainWithin final lexemes.length lexemes = .ok (labels, rest)) : labels ≠ [] := by
  obtain ⟨line, behind, rfl⟩ := exists_of_head? arrow
  rw [List.length_cons, readChainWithin] at ran
  split at ran
  · cases ran
  · obtain ⟨_, -, ran⟩ := bind_eq_ok_iff.mp ran
    obtain ⟨_, -, same⟩ := bind_eq_ok_iff.mp ran
    cases same
    exact List.cons_ne_nil _ _

/-- A statement whose head is an id that is not reserved is that of a clause. -/
theorem exists_clause_of_head {s : Spelling} (free : ¬s.Reserved) {statement : Statement}
    (ran : readAfterId final line s.text lexemes = .ok (statement, rest)) :
    ∃ clause : Clause, clause.Shaped ∧ clause.Readable ∧
      clause.statement = statement.atLine 0 ∧
      s.tokens ++ lexemes.map Lexeme.token = clause.tokens ++ rest.map Lexeme.token := by
  have head : ∀ t ∈ some s, ¬t.Reserved := by
    rintro t ⟨⟩
    exact free
  have noTargets : ∀ t ∈ ([] : List Spelling), ¬t.IsWord "subgraph" := by simp
  unfold readAfterId at ran
  split at ran
  · next equals =>
    rw [tokenAt_eq] at equals
    obtain ⟨equalsLine, behind, rfl⟩ := exists_of_head? equals
    obtain ⟨⟨value, last⟩, read, same⟩ := bind_eq_ok_iff.mp ran
    obtain ⟨v, rfl, tokens⟩ := exists_spelling read
    cases same
    exact ⟨.assign s v, trivial, ⟨head, noTargets⟩, rfl, by simp [Clause.tokens, ← tokens]⟩
  · cases ran
  · cases ran
  · next arrow =>
    obtain ⟨⟨labels, behind⟩, chain, ran⟩ := bind_eq_ok_iff.mp ran
    obtain ⟨others, rfl, freeOthers, tokens⟩ := exists_targets chain
    simp only at ran
    split at ran
    · cases ran
    · obtain ⟨⟨entries, last⟩, read, same⟩ := bind_eq_ok_iff.mp ran
      obtain ⟨lists, rfl, listTokens, -⟩ := exists_lists read
      cases same
      rw [tokenAt_eq] at arrow
      have filled : others ≠ [] := fun none => labels_ne_nil arrow chain (by rw [none]; rfl)
      exact ⟨.chain s others lists, filled, ⟨head, freeOthers⟩, rfl, by
        simp [Clause.tokens, tokens, listTokens]⟩
  · obtain ⟨⟨entries, last⟩, read, same⟩ := bind_eq_ok_iff.mp ran
    obtain ⟨lists, rfl, tokens, -⟩ := exists_lists read
    cases same
    exact ⟨.node s lists, trivial, ⟨head, noTargets⟩, rfl, by simp [Clause.tokens, tokens]⟩

theorem exists_of_subject? {token : Token} {subject : Subject}
    (found : token.subject? = some subject) :
    ∃ word, token = .id word false ∧ lowerAscii word = subject.keyword := by
  have isWord := List.find?_some found
  unfold Token.isWord at isWord
  split at isWord
  · next word => exact ⟨word, rfl, by simpa using isWord⟩
  · cases isWord

theorem exists_clause {statement : Statement}
    (ran : readStatement final lexemes = .ok (statement, rest)) :
    ∃ clause : Clause, clause.Shaped ∧ clause.Readable ∧
      clause.statement = statement.atLine 0 ∧
      lexemes.map Lexeme.token = clause.tokens ++ rest.map Lexeme.token := by
  cases lexemes with
  | nil => cases ran
  | cons lexeme behind =>
    obtain ⟨token, line⟩ := lexeme
    simp only [readStatement] at ran
    split at ran
    · cases ran
    · split at ran
      · next subject found =>
        obtain ⟨word, rfl, known⟩ := exists_of_subject? found
        split at ran
        · next bracket =>
          obtain ⟨⟨entries, last⟩, read, same⟩ := bind_eq_ok_iff.mp ran
          obtain ⟨lists, rfl, tokens, filled⟩ := exists_lists read
          cases same
          rw [tokenAt_eq, beq_iff_eq] at bracket
          exact ⟨.defaults subject word lists, ⟨known, filled bracket⟩,
            ⟨by simp [Clause.head?], by simp [Clause.targets]⟩, rfl,
            by simp [Clause.tokens, tokens]⟩
        · cases ran
      · split at ran
        · next _ _ text _ _ =>
          split at ran
          · cases ran
          · next free =>
            have free : ¬(Spelling.bare text).Reserved := by
              rwa [Spelling.reserved_bare]
            exact exists_clause_of_head free ran
        · next notBare =>
          obtain ⟨⟨first, last⟩, read, ran⟩ := bind_eq_ok_iff.mp ran
          obtain ⟨s, rfl, tokens⟩ := exists_spelling read
          have free : ¬s.Reserved := by
            cases s with
            | bare text => exact absurd (List.cons.inj tokens).1 (notBare text)
            | quoted first more => exact Spelling.not_reserved_quoted first more
          rw [tokens]
          exact exists_clause_of_head free ran

/-! ## Whole texts -/

theorem exists_body {statements : List Statement} (enough : lexemes.length < bound)
    (ran : readBodyWithin final bound lexemes = ⟨statements, none⟩) :
    ∃ body : List (Option Clause), (∀ clause ∈ body.filterMap id, clause.Shaped) ∧
      (∀ clause ∈ body.filterMap id, clause.Readable) ∧
      (body.filterMap id).map Clause.statement = statements.map (Statement.atLine 0) ∧
      lexemes.map Lexeme.token = Script.bodyTokens body ++ [.rightBrace] := by
  induction bound generalizing lexemes statements with
  | zero => exact absurd enough (Nat.not_lt_zero _)
  | succ bound ih =>
    simp only [readBodyWithin] at ran
    split at ran
    · cases ran
    · cases ran
      exact ⟨[], by simp, by simp, rfl, rfl⟩
    · cases ran
    · next line behind =>
      obtain ⟨body, shaped, readable, same, tokens⟩ := ih (Nat.lt_of_succ_lt_succ enough) ran
      exact ⟨none :: body, shaped, readable, same, by simp [Script.bodyTokens, tokens]⟩
    · split at ran
      · cases ran
      · next statement behind read =>
        obtain ⟨clause, shaped, readable, same, tokens⟩ := exists_clause read
        have fewer : behind.length < bound := by
          have count := congrArg List.length tokens
          obtain ⟨text, quoted, more, head⟩ := clause.exists_tokens_eq
          simp only [head, List.length_map, List.length_append, List.length_cons] at count
          omega
        cases later : readBodyWithin final bound behind with
        | mk others fault =>
          rw [later] at ran
          cases ran
          obtain ⟨body, shapedOthers, readableOthers, sameOthers, tokens'⟩ := ih fewer later
          refine ⟨some clause :: body, List.forall_mem_cons.mpr ⟨shaped, shapedOthers⟩,
            List.forall_mem_cons.mpr ⟨readable, readableOthers⟩, ?_, ?_⟩
          · rw [List.map_cons, ← same, ← sameOthers]
            rfl
          · simp [Script.bodyTokens, tokens, tokens']

theorem exists_brace (ran : expect final .leftBrace lexemes = .ok rest) :
    lexemes.map Lexeme.token = .leftBrace :: rest.map Lexeme.token := by
  unfold expect at ran
  split at ran
  · next found line behind =>
    split at ran
    · next same =>
      cases ran
      simp [beq_iff_eq.mp same]
    · cases ran
  · cases ran

theorem exists_of_isWord {token : Token} {word : String} (isWord : token.isWord word = true) :
    ∃ text, token = .id text false ∧ lowerAscii text = word := by
  unfold Token.isWord at isWord
  split at isWord
  · next text => exact ⟨text, rfl, by simpa using isWord⟩
  · cases isWord

/-- Behind the word that begins a graph stands a name or the opening brace. -/
theorem exists_name {name : String} {behind : List Lexeme} (read : readId final lexemes = .ok (name, behind))
    (opened : expect final .leftBrace behind = .ok rest) :
    ∃ s : Spelling, s.text = name ∧
      lexemes.map Lexeme.token = s.tokens ++ .leftBrace :: rest.map Lexeme.token := by
  obtain ⟨s, same, tokens⟩ := exists_spelling read
  exact ⟨s, same, by rw [tokens, exists_brace opened]⟩

theorem exists_header {strict : Bool} {name : String}
    (ran : readHeader final lexemes = .ok (strict, name, rest)) :
    ∃ (strict? : Option String) (word : String) (name? : Option Spelling),
      (∀ word ∈ strict?, lowerAscii word = "strict") ∧ lowerAscii word = "digraph" ∧
      strict = strict?.isSome ∧ name = name?.elim "" Spelling.text ∧
      lexemes.map Lexeme.token = (strict?.elim [] fun word => [.id word false]) ++
        .id word false :: (name?.elim [] Spelling.tokens ++ .leftBrace :: rest.map Lexeme.token) := by
  simp only [readHeader] at ran
  obtain ⟨strict?, strictWord, isStrict, split⟩ : ∃ strict? : Option String,
      (∀ word ∈ strict?, lowerAscii word = "strict") ∧
      (tokenAt lexemes).any (Token.isWord "strict") = strict?.isSome ∧
      lexemes.map Lexeme.token = (strict?.elim [] fun word => [.id word false]) ++
        (if (tokenAt lexemes).any (Token.isWord "strict") then lexemes.tail
          else lexemes).map Lexeme.token := by
    cases isStrict : (tokenAt lexemes).any (Token.isWord "strict") with
    | false => exact ⟨none, by simp, rfl, rfl⟩
    | true =>
      obtain ⟨token, first, isWord⟩ := (Option.any_eq_true _ _).mp isStrict
      obtain ⟨word, rfl, known⟩ := exists_of_isWord isWord
      rw [tokenAt_eq] at first
      obtain ⟨line, behind, rfl⟩ := exists_of_head? first
      exact ⟨some word, by simpa using known, rfl, rfl⟩
  rw [split]
  generalize (if (tokenAt lexemes).any (Token.isWord "strict") then lexemes.tail else lexemes) =
    lexemes at ran ⊢
  rw [isStrict] at ran
  split at ran
  · next token first =>
    split at ran
    · next digraph =>
      obtain ⟨word, rfl, known⟩ := exists_of_isWord digraph
      rw [tokenAt_eq] at first
      obtain ⟨line, behind, rfl⟩ := exists_of_head? first
      simp only [List.tail_cons] at ran
      split at ran
      · obtain ⟨⟨found, middle⟩, read, ran⟩ := bind_eq_ok_iff.mp ran
        obtain ⟨last, opened, same⟩ := bind_eq_ok_iff.mp ran
        cases same
        obtain ⟨s, rfl, tokens⟩ := exists_name read opened
        exact ⟨strict?, word, some s, strictWord, known, rfl, rfl, by simp [tokens]⟩
      · obtain ⟨last, opened, same⟩ := bind_eq_ok_iff.mp ran
        cases same
        exact ⟨strict?, word, none, strictWord, known, rfl, rfl, by simp [exists_brace opened]⟩
    · split at ran <;> cases ran
  · cases ran

/-- Lexemes that are read without a fault are those of a script, and mean what it means. -/
theorem exists_script {strict : Bool} {name : String} {statements : List Statement}
    (ran : Outline.ofLexemes lexemes = .ok ⟨strict, name, ⟨statements, none⟩⟩) :
    ∃ script : Script, script.Shaped ∧ (∀ clause ∈ script.clauses, clause.Readable) ∧
      lexemes.map Lexeme.token = script.tokens ∧
      script.outline = ⟨strict, name, ⟨statements.map (Statement.atLine 0), none⟩⟩ := by
  obtain ⟨⟨strict, name, rest⟩, header, same⟩ := bind_eq_ok_iff.mp ran
  obtain ⟨rfl, rfl, body⟩ := Outline.mk.inj (Except.ok.inj same)
  obtain ⟨strict?, word, name?, strictWord, known, rfl, rfl, tokens⟩ := exists_header header
  obtain ⟨body, shaped, readable, same, bodyTokens⟩ := exists_body (Nat.lt_succ_self _) body
  refine ⟨⟨strict?, word, name?, body⟩, ⟨strictWord, known, shaped⟩, readable, ?_, ?_⟩
  · rw [tokens, bodyTokens]
    rfl
  · rw [← same]
    rfl

/-! ## Texts and their scripts -/

namespace Script

/-- A text is cut into the tokens of a script. -/
def Spells (script : Script) (text : String) : Prop :=
  ∃ made, Dot.lexemes text = .ok made ∧ made.map Lexeme.token = script.tokens

/-- The graph that a script describes. -/
def graph (script : Script) : Except ReadError FlowGraph := do
  let doc ← Document.ofText script.outline
  doc.toGraph.mapError .graph

end Script

/-- A text is read as a graph exactly if a script that can be read describes the graph. -/
theorem read_eq_ok_iff {text : String} {g : FlowGraph} :
    read text = .ok g ↔ ∃ script : Script, script.Spells text ∧ script.Shaped ∧
      (∀ clause ∈ script.clauses, clause.Readable) ∧ script.graph = .ok g := by
  constructor
  · intro ran
    obtain ⟨made, cut, ran⟩ := bind_eq_ok_iff.mp ran
    obtain ⟨⟨strict, name, ⟨statements, fault⟩⟩, outlined, ran⟩ := bind_eq_ok_iff.mp ran
    obtain ⟨doc, carried, built⟩ := bind_eq_ok_iff.mp ran
    obtain rfl : fault = none := by
      obtain ⟨_, -, faultless⟩ := bind_eq_ok_iff.mp carried
      cases fault with
      | none => rfl
      | some error => cases faultless
    obtain ⟨script, shaped, readable, tokens, outline⟩ := exists_script outlined
    refine ⟨script, ⟨made, cut, tokens⟩, shaped, readable, bind_eq_ok_iff.mpr ⟨doc, ?_, built⟩⟩
    rw [outline]
    exact (Agree.ok_iff (Document.agree_ofText strict name 0 statements)).mpr carried
  · rintro ⟨script, ⟨made, cut, tokens⟩, shaped, readable, described⟩
    obtain ⟨doc, carried, built⟩ := bind_eq_ok_iff.mp described
    obtain ⟨statements, outlined, same⟩ := ofLexemes_script shaped readable tokens
    have outline : script.outline =
        ⟨script.outline.strict, script.outline.name, ⟨statements.map (Statement.atLine 0), none⟩⟩ := by
      rw [same]
      rfl
    rw [outline] at carried
    have carried := (Agree.ok_iff (Document.agree_ofText _ _ 0 statements)).mp carried
    refine bind_eq_ok_iff.mpr ⟨made, cut, bind_eq_ok_iff.mpr ⟨_, outlined, ?_⟩⟩
    exact bind_eq_ok_iff.mpr ⟨doc, carried, built⟩

/-- Texts of the same tokens are read alike. -/
theorem read_of_tokens {text other : String} {made made' : List Lexeme}
    (cut : Dot.lexemes text = .ok made) (cut' : Dot.lexemes other = .ok made')
    (same : made'.map Lexeme.token = made.map Lexeme.token) {g : FlowGraph}
    (ran : read text = .ok g) : read other = .ok g := by
  obtain ⟨script, ⟨found, foundCut, tokens⟩, shaped, readable, described⟩ := read_eq_ok_iff.mp ran
  obtain rfl : made = found := Except.ok.inj (cut.symm.trans foundCut)
  exact read_eq_ok_iff.mpr ⟨script, ⟨made', cut', same.trans tokens⟩, shaped, readable, described⟩

end ControlFlow.Dot
