import ControlFlow.Proofs.Dot.Recognition

/-! A text has one reading. Where two trees of a kind begin the same tokens, and neither can go on
with what is left behind it, they are the same tree and leave the same tokens. -/
namespace ControlFlow.Dot

variable {more more' : List Token}

theorem pieces_unique {pieces pieces' : List String} (alone : more.head? ≠ some .plus)
    (alone' : more'.head? ≠ some .plus)
    (same : (pieces.flatMap fun piece => [Token.plus, .id piece true]) ++ more =
      (pieces'.flatMap fun piece => [Token.plus, .id piece true]) ++ more') :
    pieces = pieces' ∧ more = more' := by
  induction pieces generalizing pieces' with
  | nil =>
    cases pieces' with
    | nil => exact ⟨rfl, same⟩
    | cons piece' pieces' => exact absurd (congrArg List.head? same) alone
  | cons piece pieces ih =>
    cases pieces' with
    | nil => exact absurd (congrArg List.head? same).symm alone'
    | cons piece' pieces' =>
      simp only [List.flatMap_cons, List.cons_append, List.nil_append, List.cons.injEq,
        Token.id.injEq, true_and, and_true] at same
      obtain ⟨rfl, same⟩ := same
      obtain ⟨rfl, rest⟩ := ih same
      exact ⟨rfl, rest⟩

theorem Spelling.unique {s s' : Spelling} (alone : more.head? ≠ some .plus)
    (alone' : more'.head? ≠ some .plus) (same : s.tokens ++ more = s'.tokens ++ more') :
    s = s' ∧ more = more' := by
  cases s <;> cases s'
  case bare.bare text text' =>
    simp only [tokens, List.cons_append, List.nil_append, List.cons.injEq, Token.id.injEq,
      and_true] at same
    exact ⟨congrArg bare same.1, same.2⟩
  case quoted.quoted first pieces first' pieces' =>
    simp only [tokens, List.cons_append, List.cons.injEq, Token.id.injEq, and_true] at same
    obtain ⟨rfl, same⟩ := same
    obtain ⟨rfl, rest⟩ := pieces_unique alone alone' same
    exact ⟨rfl, rest⟩
  all_goals simp [tokens] at same

theorem separator_unique {separator separator' : Separator} (ends : ∀ t ∈ more.head?, t.EndsEntry)
    (ends' : ∀ t ∈ more'.head?, t.EndsEntry)
    (same : separator.tokens ++ more = separator'.tokens ++ more') :
    separator = separator' ∧ more = more' := by
  have first {token : Token} {rest : List Token} (head : more = token :: rest) : token.EndsEntry :=
    ends token (by rw [head]; rfl)
  have first' {token : Token} {rest : List Token} (head : more' = token :: rest) :
      token.EndsEntry := ends' token (by rw [head]; rfl)
  cases separator <;> cases separator' <;> simp only [Separator.tokens, List.nil_append,
    List.cons_append, List.cons.injEq, true_and, reduceCtorEq, false_and] at same
  all_goals first
    | exact ⟨rfl, same⟩
    | exact (first same).elim
    | exact (first' same.symm).elim

theorem WrittenEntry.unique {e e' : WrittenEntry} (ends : ∀ t ∈ more.head?, t.EndsEntry)
    (ends' : ∀ t ∈ more'.head?, t.EndsEntry) (same : e.tokens ++ more = e'.tokens ++ more') :
    e = e' ∧ more = more' := by
  have alone {more : List Token} (ends : ∀ t ∈ more.head?, t.EndsEntry) (separator : Separator) :
      (separator.tokens ++ more).head? ≠ some .plus := by
    cases separator <;> first | exact fun plus => ends _ plus | exact nofun
  simp only [tokens, List.append_assoc, List.cons_append] at same
  obtain ⟨key, behind⟩ := Spelling.unique (by simp) (by simp) same
  obtain ⟨value, behind⟩ := Spelling.unique (alone ends _) (alone ends' _) (List.cons.inj behind).2
  obtain ⟨separator, rest⟩ := separator_unique ends ends' behind
  cases e
  cases e'
  cases key
  cases value
  cases separator
  exact ⟨rfl, rest⟩

theorem list_unique {list list' : List WrittenEntry}
    (same : list.flatMap WrittenEntry.tokens ++ .rightBracket :: more =
      list'.flatMap WrittenEntry.tokens ++ .rightBracket :: more') : list = list' ∧ more = more' := by
  have filled (e : WrittenEntry) (list : List WrittenEntry) (rest others : List Token) :
      Token.rightBracket :: rest ≠ (e :: list).flatMap WrittenEntry.tokens ++ others := by
    obtain ⟨text, quoted, tail, head⟩ := e.key.exists_tokens_eq
    simp [WrittenEntry.tokens, head]
  induction list generalizing list' with
  | nil =>
    cases list' with
    | nil => exact ⟨rfl, (List.cons.inj same).2⟩
    | cons e' list' => exact absurd same (filled e' list' _ _)
  | cons e list ih =>
    cases list' with
    | nil => exact absurd same.symm (filled e list _ _)
    | cons e' list' =>
      simp only [List.flatMap_cons, List.append_assoc] at same
      obtain ⟨rfl, behind⟩ := WrittenEntry.unique (endsEntry_list list _) (endsEntry_list list' _) same
      obtain ⟨rfl, rest⟩ := ih behind
      exact ⟨rfl, rest⟩

theorem Lists.unique {lists lists' : Lists} (ends : more.head? ≠ some .leftBracket)
    (ends' : more'.head? ≠ some .leftBracket)
    (same : lists.tokens ++ more = lists'.tokens ++ more') : lists = lists' ∧ more = more' := by
  induction lists generalizing lists' with
  | nil =>
    cases lists' with
    | nil => exact ⟨rfl, same⟩
    | cons list' lists' => exact absurd (congrArg List.head? same) ends
  | cons list lists ih =>
    cases lists' with
    | nil => exact absurd (congrArg List.head? same).symm ends'
    | cons list' lists' =>
      simp only [tokens, List.flatMap_cons, List.cons_append, List.append_assoc, List.nil_append,
        List.cons.injEq, true_and] at same
      obtain ⟨rfl, behind⟩ := list_unique same
      obtain ⟨rfl, rest⟩ := ih behind
      exact ⟨rfl, rest⟩

theorem chain_unique {others others' : List Spelling}
    (ends : more.head? ≠ some .plus ∧ more.head? ≠ some .arrow)
    (ends' : more'.head? ≠ some .plus ∧ more'.head? ≠ some .arrow)
    (same : (others.flatMap fun label => Token.arrow :: label.tokens) ++ more =
      (others'.flatMap fun label => Token.arrow :: label.tokens) ++ more') :
    others = others' ∧ more = more' := by
  have alone {more : List Token} (ends : more.head? ≠ some .plus) (others : List Spelling) :
      ((others.flatMap fun label => Token.arrow :: label.tokens) ++ more).head? ≠ some .plus := by
    cases others with
    | nil => exact ends
    | cons label others => simp
  induction others generalizing others' with
  | nil =>
    cases others' with
    | nil => exact ⟨rfl, same⟩
    | cons label' others' => exact absurd (congrArg List.head? same) ends.2
  | cons label others ih =>
    cases others' with
    | nil => exact absurd (congrArg List.head? same).symm ends'.2
    | cons label' others' =>
      simp only [List.flatMap_cons, List.cons_append, List.append_assoc, List.cons.injEq,
        true_and] at same
      obtain ⟨rfl, behind⟩ := Spelling.unique (alone ends.1 others) (alone ends'.1 others') same
      obtain ⟨rfl, rest⟩ := ih behind
      exact ⟨rfl, rest⟩

/-! ## Statements -/

namespace Clause

/-- What stands behind the first id or word of a statement. -/
def rest : Clause → List Token
  | defaults _ _ lists | node _ lists => lists.tokens
  | assign _ value => .equals :: value.tokens
  | chain _ others lists => (others.flatMap fun label => .arrow :: label.tokens) ++ lists.tokens

theorem tokens_eq {clause : Clause} {s : Spelling} (head : clause.head? = some s) :
    clause.tokens = s.tokens ++ clause.rest := by
  cases clause <;> simp_all [head?, tokens, rest]

/-- Neither a plus nor an id stands behind it. -/
theorem rest_alone (clause : Clause) (ends : ∀ t ∈ more.head?, t.EndsStatement) :
    (clause.rest ++ more).head? ≠ some .plus := by
  have lists (lists : Lists) : (lists.tokens ++ more).head? ≠ some .plus :=
    head?_lists_ne lists ends id (by simp)
  cases clause with
  | defaults subject word lists' | node label lists' => exact lists lists'
  | assign key value => simp [rest]
  | chain first others lists' =>
    cases others with
    | nil => exact lists lists'
    | cons label others => simp [rest]

/-- A word for a subject is not read as an id. -/
theorem defaults_ne_head {subject : Subject} {word : String} {s : Spelling} {rest rest' : List Token}
    (known : lowerAscii word = subject.keyword) (free : ¬s.Reserved) :
    Token.id word false :: rest ≠ s.tokens ++ rest' := by
  intro same
  cases s with
  | bare text =>
    obtain ⟨rfl, -⟩ := Token.id.inj (List.cons.inj same).1
    refine free ⟨subject.keyword, ?_, known⟩
    cases subject <;> decide
  | quoted first pieces => cases (Token.id.inj (List.cons.inj same).1).2

theorem Subject.keyword_injective : Function.Injective Subject.keyword := by
  intro subject other same
  cases subject <;> cases other <;> first | rfl | exact absurd same (by decide)

/-- Behind the head of a statement, the next token tells what kind of statement it is. -/
theorem rest_unique {clause clause' : Clause} {s : Spelling} (head : clause.head? = some s)
    (head' : clause'.head? = some s) (shaped : clause.Shaped) (shaped' : clause'.Shaped)
    (ends : ∀ t ∈ more.head?, t.EndsStatement) (ends' : ∀ t ∈ more'.head?, t.EndsStatement)
    (same : clause.rest ++ more = clause'.rest ++ more') : clause = clause' ∧ more = more' := by
  have next {more : List Token} (ends : ∀ t ∈ more.head?, t.EndsStatement) (lists : Lists) :
      (lists.tokens ++ more).head? ≠ some .plus ∧ (lists.tokens ++ more).head? ≠ some .arrow ∧
        (lists.tokens ++ more).head? ≠ some .equals :=
    ⟨head?_lists_ne lists ends id (by simp), head?_lists_ne lists ends id (by simp),
      head?_lists_ne lists ends id (by simp)⟩
  have bracket {more : List Token} (ends : ∀ t ∈ more.head?, t.EndsStatement) :
      more.head? ≠ some .leftBracket := fun same => ends _ same
  have arrow {others : List Spelling} (filled : others ≠ []) (tail : List Token) :
      ((others.flatMap fun label => Token.arrow :: label.tokens) ++ tail).head? = some .arrow := by
    cases others with
    | nil => exact absurd rfl filled
    | cons label others => rfl
  cases clause <;> cases clause' <;> simp only [head?, Option.some.injEq, reduceCtorEq] at head head'
  all_goals subst head head'
  case assign.assign value value' =>
    obtain ⟨rfl, rest⟩ := Spelling.unique (fun same => ends _ same) (fun same => ends' _ same)
      (List.cons.inj same).2
    exact ⟨rfl, rest⟩
  case node.node lists lists' =>
    obtain ⟨rfl, rest⟩ := Lists.unique (bracket ends) (bracket ends') same
    exact ⟨rfl, rest⟩
  case chain.chain others lists _ others' lists' =>
    simp only [rest, List.append_assoc] at same
    obtain ⟨rfl, behind⟩ := chain_unique ⟨(next ends lists).1, (next ends lists).2.1⟩
      ⟨(next ends' lists').1, (next ends' lists').2.1⟩ same
    obtain ⟨rfl, rest⟩ := Lists.unique (bracket ends) (bracket ends') behind
    exact ⟨rfl, rest⟩
  all_goals
    have first := congrArg List.head? same
    simp only [rest, List.append_assoc] at first
  case assign.node value lists => exact absurd first.symm (next ends' lists).2.2
  case node.assign lists _ value => exact absurd first (next ends lists).2.2
  case assign.chain value others lists =>
    rw [arrow shaped'] at first
    cases first
  case chain.assign others lists value =>
    rw [arrow shaped] at first
    cases first
  case node.chain lists _ others lists' =>
    rw [arrow shaped'] at first
    exact absurd first (next ends lists).2.1
  case chain.node others lists lists' =>
    rw [arrow shaped] at first
    exact absurd first.symm (next ends' lists').2.1

theorem unique {clause clause' : Clause} (shaped : clause.Shaped) (shaped' : clause'.Shaped)
    (readable : clause.Readable) (readable' : clause'.Readable)
    (ends : ∀ t ∈ more.head?, t.EndsStatement) (ends' : ∀ t ∈ more'.head?, t.EndsStatement)
    (same : clause.tokens ++ more = clause'.tokens ++ more') : clause = clause' ∧ more = more' := by
  have noHead {clause : Clause} (none : clause.head? = none) :
      ∃ subject word lists, clause = defaults subject word lists := by
    cases clause <;> first | exact ⟨_, _, _, rfl⟩ | cases none
  -- Both begin with a word for a subject, or both with an id.
  cases head : clause.head? with
  | none =>
    obtain ⟨subject, word, lists, rfl⟩ := noHead head
    cases head' : clause'.head? with
    | none =>
      obtain ⟨subject', word', lists', rfl⟩ := noHead head'
      simp only [tokens, List.cons_append, List.cons.injEq, Token.id.injEq, and_true] at same
      obtain ⟨rfl, behind⟩ := same
      obtain rfl := Subject.keyword_injective (shaped.1.symm.trans shaped'.1)
      obtain ⟨rfl, rest⟩ := Lists.unique (fun same => ends _ same) (fun same => ends' _ same) behind
      exact ⟨rfl, rest⟩
    | some s =>
      rw [tokens_eq head', List.append_assoc] at same
      exact absurd same (defaults_ne_head shaped.1 (readable'.head s head'))
  | some s =>
    rw [tokens_eq head, List.append_assoc] at same
    cases head' : clause'.head? with
    | none =>
      obtain ⟨subject, word, lists, rfl⟩ := noHead head'
      exact absurd same.symm (defaults_ne_head shaped'.1 (readable.head s head))
    | some s' =>
      rw [tokens_eq head', List.append_assoc] at same
      obtain ⟨rfl, behind⟩ :=
        Spelling.unique (clause.rest_alone ends) (clause'.rest_alone ends') same
      exact rest_unique head head' shaped shaped' ends ends' behind

end Clause

/-! ## Whole texts -/

/-- A statement begins with an id, so nothing else begins it. -/
theorem bodyTokens_some_ne (clause : Clause) (body : List (Option Clause)) {token : Token}
    (notId : ∀ text quoted, token ≠ .id text quoted) (more behind : List Token) :
    token :: more ≠ Script.bodyTokens (some clause :: body) ++ behind := by
  obtain ⟨text, quoted, others, first⟩ := clause.exists_tokens_eq
  rw [Script.bodyTokens, List.flatMap_cons, Option.elim_some, first]
  exact fun same => notId text quoted (List.cons.inj same).1

theorem body_unique {body body' : List (Option Clause)}
    (shaped : ∀ clause ∈ body.filterMap id, clause.Shaped ∧ clause.Readable)
    (shaped' : ∀ clause ∈ body'.filterMap id, clause.Shaped ∧ clause.Readable)
    (same : Script.bodyTokens body ++ [.rightBrace] = Script.bodyTokens body' ++ [.rightBrace]) :
    body = body' := by
  induction body generalizing body' with
  | nil =>
    rcases body' with _ | ⟨_ | clause, body'⟩
    · rfl
    · cases (List.cons.inj same).1
    · exact absurd same (bodyTokens_some_ne clause body' (by simp) _ _)
  | cons clause? body ih =>
    cases clause? with
    | none =>
      rcases body' with _ | ⟨_ | clause, body'⟩
      · cases (List.cons.inj same).1
      · have behind : Script.bodyTokens body ++ [.rightBrace] =
            Script.bodyTokens body' ++ [.rightBrace] := (List.cons.inj same).2
        rw [@ih body' shaped shaped' behind]
      · exact absurd same (bodyTokens_some_ne clause body' (by simp) _ _)
    | some clause =>
      rcases body' with _ | ⟨_ | clause', body'⟩
      · exact absurd same.symm (bodyTokens_some_ne clause body (by simp) _ _)
      · exact absurd same.symm (bodyTokens_some_ne clause body (by simp) _ _)
      · obtain ⟨here, others⟩ := List.forall_mem_cons.mp shaped
        obtain ⟨here', others'⟩ := List.forall_mem_cons.mp shaped'
        simp only [Script.bodyTokens, List.flatMap_cons, Option.elim_some, List.append_assoc] at same
        obtain ⟨rfl, behind⟩ := Clause.unique here.1 here'.1 here.2 here'.2 (endsStatement_body body)
          (endsStatement_body body') same
        rw [ih others others' behind]

/-- Scripts that can be read and have the same tokens are the same. -/
theorem Script.unique {script script' : Script} (shaped : script.Shaped) (shaped' : script'.Shaped)
    (readable : ∀ clause ∈ script.clauses, clause.Readable)
    (readable' : ∀ clause ∈ script'.clauses, clause.Readable)
    (same : script.tokens = script'.tokens) : script = script' := by
  obtain ⟨strict, word, name, body⟩ := script
  obtain ⟨strict', word', name', body'⟩ := script'
  have notStrict {word strict : String} (digraph : lowerAscii word = "digraph")
      (known : lowerAscii strict = "strict") : word ≠ strict := by
    rintro rfl
    exact absurd (digraph.symm.trans known) (by decide)
  obtain ⟨rfl, rfl, behind⟩ : strict = strict' ∧ word = word' ∧
      name.elim [] Spelling.tokens ++ .leftBrace :: (bodyTokens body ++ [.rightBrace]) =
        name'.elim [] Spelling.tokens ++ .leftBrace :: (bodyTokens body' ++ [.rightBrace]) := by
    cases strict <;> cases strict' <;>
      simp only [tokens, Option.elim_none, Option.elim_some, List.nil_append, List.cons_append,
        List.cons.injEq, Token.id.injEq, and_true] at same
    case none.none => exact ⟨rfl, same.1, same.2⟩
    case some.some => exact ⟨congrArg some same.1, same.2.1, same.2.2⟩
    case none.some => exact absurd same.1 (notStrict shaped.word (shaped'.strict _ rfl))
    case some.none => exact absurd same.1.symm (notStrict shaped'.word (shaped.strict _ rfl))
  obtain ⟨rfl, opened⟩ : name = name' ∧
      Token.leftBrace :: (bodyTokens body ++ [.rightBrace]) =
        .leftBrace :: (bodyTokens body' ++ [.rightBrace]) := by
    have named (name : Spelling) (rest others : List Token) :
        Token.leftBrace :: rest ≠ name.tokens ++ others := by
      obtain ⟨text, quoted, more, head⟩ := name.exists_tokens_eq
      simp [head]
    cases name <;> cases name' <;> simp only [Option.elim_none, Option.elim_some, List.nil_append]
      at behind
    case none.none => exact ⟨rfl, behind⟩
    case some.some =>
      obtain ⟨rfl, rest⟩ := Spelling.unique (by simp) (by simp) behind
      exact ⟨rfl, rest⟩
    case none.some => exact absurd behind (named _ _ _)
    case some.none => exact absurd behind.symm (named _ _ _)
  obtain rfl : body = body' := body_unique
    (fun clause member => ⟨shaped.clauses clause member, readable clause member⟩)
    (fun clause member => ⟨shaped'.clauses clause member, readable' clause member⟩)
    (List.cons.inj opened).2
  rfl

end ControlFlow.Dot
