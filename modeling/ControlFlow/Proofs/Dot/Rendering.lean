import ControlFlow.Proofs.Dot.Layout
import ControlFlow.Proofs.Dot.ReservedWords

/-! Texts that are written token by token, with any layout between them. Ids stand as they are quoted.
Such a text is cut into the tokens that it was written from. -/
namespace ControlFlow.Dot

variable {token : Token} {tokens : List Token} {text rest : List Char} {word : String}

/-! ## Reserved words -/

theorem isAlpha_of_toLower {c : Char} (lower : c.toLower.isAlpha = true) : c.isAlpha = true := by
  unfold Char.toLower at lower
  split at lower
  · next upper =>
    rw [Char.isAlpha, Bool.or_eq_true]
    exact .inl (by simpa [Char.isUpper] using upper)
  · exact lower

theorem toNat_lt_of_isAlpha {c : Char} (alpha : c.isAlpha = true) : c.toNat < 0x80 := by
  have code : c.toNat = c.val.toNat := rfl
  simp only [Char.isAlpha, Char.isUpper, Char.isLower, UInt32.le_iff_toNat_le, Bool.or_eq_true,
    Bool.and_eq_true, decide_eq_true_eq, ge_iff_le] at alpha
  rcases alpha with upper | lower
  · simp at upper
    omega
  · simp at lower
    omega

/-- No letter of ASCII could begin a gap. -/
theorem solid_of_isAlpha {c : Char} (alpha : c.isAlpha = true) :
    Text.isBlank c = false ∧ c ≠ '/' ∧ c ≠ '#' := by
  refine ⟨?_, ?_, ?_⟩
  · rw [Bool.eq_false_iff]
    intro blank
    have only := isBlank_of_ascii c.toNat (toNat_lt_of_isAlpha alpha)
    rw [Char.ofNat_toNat] at only
    have noWord := (only blank).1
    simp [isWordChar, isWordStart, alpha] at noWord
  · rintro rfl
    exact absurd alpha (by decide)
  · rintro rfl
    exact absurd alpha (by decide)

/-- A reserved word is made of letters, however it is capitalised. -/
theorem exists_keyword_chars (known : isKeyword word = true) :
    ∃ c cs, word.toList = c :: cs ∧ c.isAlpha = true ∧ ∀ d ∈ cs, d.isAlpha = true := by
  have letters : keywords.all (fun s => !s.toList.isEmpty && s.toList.all Char.isAlpha) = true := rfl
  have lower := List.all_eq_true.mp letters (lowerAscii word) (by simpa [isKeyword] using known)
  rw [Bool.and_eq_true, Bool.not_eq_true', List.isEmpty_eq_false_iff, List.all_eq_true] at lower
  obtain ⟨filled, all⟩ := lower
  rw [lowerAscii, String.toList_ofList] at filled all
  have alpha : ∀ c ∈ word.toList, c.isAlpha = true := fun c member =>
    isAlpha_of_toLower (all _ (List.mem_map_of_mem member))
  obtain ⟨c, cs, same⟩ := List.exists_cons_of_ne_nil fun none => filled (List.map_eq_nil_iff.mpr none)
  rw [same] at alpha
  obtain ⟨first, others⟩ := List.forall_mem_cons.mp alpha
  exact ⟨c, cs, same, first, others⟩

/-! ## Tokens as they are written -/

/-- How a token is written: an id as it is quoted, a reserved word, or a mark. -/
inductive Writes : Token → List Char → Prop where
  | id {s : String} (solid : Solid s) : Writes (idToken s) (quote s).toList
  | word {word : String} (known : isKeyword word = true) : Writes (.id word false) word.toList
  | mark {c : Char} {token : Token} (known : Token.ofChar? c = some token) : Writes token [c]
  | arrow : Writes .arrow ['-', '>']

/-- Tokens that are written one after the other, with layout in front of each and at the end. What
follows a word or a numeral does not go on with it. -/
inductive Renders : List Token → List Char → Prop where
  | done {layout : List Char} (separates : Layout layout) : Renders [] layout
  | token {token : Token} {tokens : List Token} {layout text rest : List Char}
      (separates : Layout layout) (written : Writes token text)
      (ends : ∀ s, token = .id s false → Stops rest) (others : Renders tokens rest) :
      Renders (token :: tokens) (layout ++ text ++ rest)

theorem Writes.cuts (written : Writes token text) (ends : ∀ s, token = .id s false → Stops rest) :
    Cuts (text ++ rest) [token] rest := by
  cases written with
  | @id s solid => exact Cuts.id solid fun bare => ends s (by rw [idToken, bare]; rfl)
  | @word word known =>
    obtain ⟨c, cs, same, first, others⟩ := exists_keyword_chars known
    obtain ⟨notBlank, notSlash, notHash⟩ := solid_of_isAlpha first
    have letters : ∀ d ∈ cs, isWordChar d = true := fun d member => by
      simp [isWordChar, isWordStart, others d member]
    rw [same, List.cons_append]
    refine Cuts.token notBlank notSlash notHash (by simp) fun line => ⟨line, ?_⟩
    rw [nextToken_word (by simp [isWordStart, first]) letters (ends word rfl).word, ← same,
      String.ofList_toList]
  | mark known => exact Cuts.mark known rest
  | arrow => exact Cuts.arrow rest

/-- A text is cut into the tokens that it was written from. -/
theorem Renders.cuts (renders : Renders tokens text) : Cuts text tokens [] := by
  induction renders with
  | @done layout separates => simpa using separates.cuts []
  | token separates written ends _ ih =>
    rw [List.append_assoc]
    exact (separates.cuts _).trans ((written.cuts ends).trans ih)

/-! ## A rendering of every script -/

/-- A token as it is written, if it can be. -/
def Token.written : Token → List Char
  | id s false => s.toList
  | id s true => (quote s).toList
  | leftBrace => ['\x7b']
  | rightBrace => ['\x7d']
  | leftBracket => ['[']
  | rightBracket => [']']
  | equals => ['=']
  | semicolon => [';']
  | comma => [',']
  | colon => [':']
  | plus => ['+']
  | arrow => ['-', '>']
  | line => ['-', '-']

/-- A blank in front of each token. -/
def spaced (tokens : List Token) : List Char := tokens.flatMap fun token => ' ' :: token.written

theorem renders_of_writes (written : ∀ token ∈ tokens, Writes token token.written) :
    Renders tokens (spaced tokens) := by
  induction tokens with
  | nil => exact .done .nil
  | cons token tokens ih =>
    obtain ⟨first, others⟩ := List.forall_mem_cons.mp written
    have stops : Stops (spaced tokens) := by
      intro c head
      cases tokens with
      | nil => cases head
      | cons next tokens =>
        obtain rfl := Option.some.inj head
        decide
    exact .token (.blank (by decide) rfl .nil) first (fun _ _ => stops) (ih others)

theorem writes_idToken {s : String} (solid : Solid s) :
    Writes (idToken s) (idToken s).written := by
  have written := Writes.id solid
  by_cases bare : isBare s = true
  · rw [idToken, bare, Bool.not_true, Token.written]
    rwa [idToken, bare, quote, if_pos bare] at written
  · rw [idToken, Bool.eq_false_iff.mpr bare, Bool.not_false, Token.written]
    rwa [idToken, Bool.eq_false_iff.mpr bare] at written

/-- An id that stands as it is quoted. -/
def Spelling.AsQuoted (s : Spelling) : Prop := s = .ofId s.text

variable {s : Spelling} {lists : Lists} {clause : Clause} {script : Script}

theorem Spelling.writes (quoted : s.AsQuoted) (solid : Solid s.text) :
    ∀ token ∈ s.tokens, Writes token token.written := by
  rw [quoted, tokens_ofId]
  simpa using writes_idToken solid

theorem Lists.writes (quoted : ∀ s ∈ lists.ids, s.AsQuoted ∧ Solid s.text) :
    ∀ token ∈ lists.tokens, Writes token token.written := by
  intro token member
  obtain ⟨list, listed, member⟩ := List.mem_flatMap.mp member
  have id (e : WrittenEntry) (entered : e ∈ list) (s : Spelling) (part : s = e.key ∨ s = e.value) :
      ∀ token ∈ s.tokens, Writes token token.written := by
    obtain ⟨quoted, solid⟩ := quoted s (List.mem_flatMap.mpr ⟨list, listed,
      List.mem_flatMap.mpr ⟨e, entered, by simpa using part⟩⟩)
    exact s.writes quoted solid
  simp only [List.mem_cons, List.mem_append, List.mem_flatMap, List.not_mem_nil, or_false] at member
  rcases member with rfl | ⟨e, entered, member⟩ | rfl
  · exact .mark rfl
  · simp only [WrittenEntry.tokens, List.mem_append, List.mem_cons] at member
    rcases member with (key | rfl | value) | separator
    · exact id e entered e.key (.inl rfl) token key
    · exact .mark rfl
    · exact id e entered e.value (.inr rfl) token value
    · cases same : e.separator <;> simp only [same, Separator.tokens, List.mem_singleton,
        List.not_mem_nil] at separator
      all_goals
        rw [separator]
        exact .mark rfl
  · exact .mark rfl

theorem Clause.writes (shaped : clause.Shaped)
    (quoted : ∀ s ∈ clause.ids, s.AsQuoted ∧ Solid s.text) :
    ∀ token ∈ clause.tokens, Writes token token.written := by
  have id {s : Spelling} (member : s ∈ clause.ids) := s.writes (quoted s member).1 (quoted s member).2
  have list {lists : Lists} (within : ∀ s ∈ lists.ids, s ∈ clause.ids) :=
    lists.writes fun s member => quoted s (within s member)
  cases clause with
  | defaults subject word lists =>
    have known : isKeyword word = true := by
      simp only [isKeyword, shaped.1]
      cases subject <;> decide
    rw [tokens, List.forall_mem_cons]
    exact ⟨.word known, list fun s member => member⟩
  | assign key value =>
    simp only [tokens, List.forall_mem_append, List.forall_mem_cons]
    exact ⟨id (by simp [ids]), .mark rfl, id (by simp [ids])⟩
  | node label lists =>
    simp only [tokens, List.forall_mem_append]
    exact ⟨id (by simp [ids]), list fun s member => List.mem_cons_of_mem _ member⟩
  | chain first others lists =>
    simp only [tokens, List.forall_mem_append]
    refine ⟨⟨id (by simp [ids]), fun token member => ?_⟩, list fun s member => by simp [ids, member]⟩
    obtain ⟨label, listed, member⟩ := List.mem_flatMap.mp member
    rcases List.mem_cons.mp member with rfl | member
    · exact .arrow
    · exact id (by simp [ids, listed]) token member

/-- Every script whose ids stand as they are quoted has a rendering. -/
theorem Script.renders_spaced (shaped : script.Shaped)
    (quoted : ∀ s ∈ script.ids, s.AsQuoted ∧ Solid s.text) :
    Renders script.tokens (spaced script.tokens) := by
  refine renders_of_writes ?_
  have body : ∀ token ∈ bodyTokens script.body, Writes token token.written := by
    intro token member
    obtain ⟨clause?, listed, member⟩ := List.mem_flatMap.mp member
    cases clause? with
    | none =>
      rw [List.mem_singleton.mp member]
      exact .mark rfl
    | some clause =>
      have clauses : clause ∈ script.clauses := List.mem_filterMap.mpr ⟨_, listed, rfl⟩
      exact clause.writes (shaped.clauses clause clauses) (fun s within => quoted s
        (List.mem_append_right _ (List.mem_flatMap.mpr ⟨clause, clauses, within⟩))) token member
  have keyword {word known : String} (same : lowerAscii word = known) (listed : known ∈ keywords) :
      Writes (.id word false) (Token.id word false).written :=
    .word (by simpa [isKeyword, same] using listed)
  simp only [tokens, List.forall_mem_append, List.forall_mem_cons]
  refine ⟨fun token member => ?_, keyword shaped.word (by decide), fun token member => ?_, .mark rfl,
    body, .mark rfl, by simp⟩
  · cases strict : script.strict with
    | none => simp [strict] at member
    | some word =>
      simp only [strict, Option.elim_some, List.mem_singleton] at member
      rw [member]
      exact keyword (shaped.strict word strict) (by decide)
  · cases named : script.name with
    | none => simp [named] at member
    | some name =>
      obtain ⟨asQuoted, solid⟩ := quoted name (by simp [ids, named])
      simp only [named, Option.elim_some] at member
      exact name.writes asQuoted solid token member

end ControlFlow.Dot
