import ControlFlow.Proofs.Dot.Ids
import ControlFlow.Proofs.Except

/-! Texts cut into lexemes. What a text is cut into is told by tokens alone: on which lines they
begin does not matter to a text that is read without a fault. Blanks make no token, marks and ids
make one each, and texts put together are cut one after the other. -/
namespace ControlFlow.Dot

variable {s : String} {text middle rest : List Char} {tokens more : List Token} {c : Char}

/-! ## Gaps -/

theorem skipGap_blank (blank : Text.isBlank c = true) (line : Nat) (rest : List Char) :
    skipGap .blank line (c :: rest) = skipGap .blank (lineAfter line c) rest := by
  have notSlash : c ≠ '/' := by
    rintro rfl
    cases blank
  rw [skipGap, if_pos blank]
  all_goals simp_all

theorem skipGap_solid (solid : Text.isBlank c = false) (notSlash : c ≠ '/') (notHash : c ≠ '#')
    (line : Nat) (rest : List Char) : skipGap .blank line (c :: rest) = .ok (line, c :: rest) := by
  rw [skipGap, if_neg (Bool.eq_false_iff.mp solid), if_neg (by simpa using notHash)]
  all_goals simp_all

/-! ## Cutting -/

/-- The beginning of a text makes these tokens and leaves the rest to be cut. Each token takes a
character at least. -/
structure Cuts (text : List Char) (tokens : List Token) (rest : List Char) : Prop where
  shorter : tokens.length + rest.length ≤ text.length
  cut : ∀ bound line, ∃ lexemes after, lexemes.map Lexeme.token = tokens ∧
    lexemesWithin (bound + tokens.length) line text =
      (lexemes ++ ·) <$> lexemesWithin bound after rest

namespace Cuts

theorem refl (text : List Char) : Cuts text [] text where
  shorter := by simp
  cut bound line := ⟨[], line, rfl, (id_map _).symm⟩

theorem trans (first : Cuts text tokens middle) (second : Cuts middle more rest) :
    Cuts text (tokens ++ more) rest where
  shorter := by
    have := first.shorter
    have := second.shorter
    rw [List.length_append]
    omega
  cut bound line := by
    -- What the second part needs of the bound is left over from the first.
    obtain ⟨lexemes, between, made, cut⟩ := first.cut (bound + more.length) line
    obtain ⟨others, after, made', cut'⟩ := second.cut bound between
    refine ⟨lexemes ++ others, after, by rw [List.map_append, made, made'], ?_⟩
    rw [List.length_append, Nat.add_comm tokens.length, ← Nat.add_assoc, cut, cut', ← comp_map]
    simp only [Function.comp_def, List.append_assoc]

/-- A gap makes no token. -/
theorem gap (shorter : rest.length ≤ text.length)
    (passed : ∀ line, ∃ after, skipGap .blank line text = skipGap .blank after rest) :
    Cuts text [] rest where
  shorter := by simpa using shorter
  cut bound line := by
    obtain ⟨after, passed⟩ := passed line
    refine ⟨[], after, rfl, ?_⟩
    rw [List.length_nil, Nat.add_zero]
    cases bound with
    | zero => rfl
    | succ bound =>
      rw [lexemesWithin, lexemesWithin, passed]
      exact (id_map _).symm

/-- A blank between tokens. -/
theorem blank (blank : Text.isBlank c = true) (rest : List Char) : Cuts (c :: rest) [] rest :=
  gap (Nat.le_succ _) fun line => ⟨lineAfter line c, skipGap_blank blank line rest⟩

/-- One token behind a gap. -/
theorem tokenBehind {token : Token} {skipped : List Char} (shorter : rest.length ≤ text.length)
    (passed : ∀ line, ∃ start, skipGap .blank line (skipped ++ c :: text) = .ok (start, c :: text))
    (next : ∀ line, ∃ after, nextToken line (c :: text) = .ok (token, after, rest)) :
    Cuts (skipped ++ c :: text) [token] rest where
  shorter := by
    rw [List.length_singleton, List.length_append, List.length_cons]
    omega
  cut bound line := by
    obtain ⟨start, passed⟩ := passed line
    obtain ⟨after, read⟩ := next start
    refine ⟨[⟨token, start⟩], after, rfl, ?_⟩
    rw [List.length_singleton, lexemesWithin, passed, ok_bind]
    simp only
    rw [read, ok_bind]
    cases lexemesWithin bound after rest <;> rfl

/-- One token, at a character that begins no gap. -/
theorem token {token : Token} (solid : Text.isBlank c = false) (notSlash : c ≠ '/')
    (notHash : c ≠ '#') (shorter : rest.length ≤ text.length)
    (next : ∀ line, ∃ after, nextToken line (c :: text) = .ok (token, after, rest)) :
    Cuts (c :: text) [token] rest :=
  have nothing : ∀ line, ∃ start, skipGap .blank line ([] ++ c :: text) = .ok (start, c :: text) :=
    fun line => ⟨line, skipGap_solid solid notSlash notHash line text⟩
  tokenBehind shorter nothing next

/-- A mark of one character. -/
theorem mark {token : Token} (known : Token.ofChar? c = some token) (rest : List Char) :
    Cuts (c :: rest) [token] rest := by
  have other {d : Char} (no : Token.ofChar? d = none) : c ≠ d := by
    rintro rfl
    rw [no] at known
    cases known
  refine Cuts.token ?_ (other rfl) (other rfl) (Nat.le_refl _) fun line =>
    ⟨line, nextToken_mark known line rest⟩
  unfold Token.ofChar? at known
  split at known <;> first | rfl | cases known

theorem arrow (rest : List Char) : Cuts ('-' :: '>' :: rest) [.arrow] rest :=
  token rfl (by decide) (by decide) (Nat.le_succ _) fun line => ⟨line, rfl⟩

end Cuts

/-- A text that does not begin with a blank beyond ASCII. Such a blank is passed over where it would
begin a bare id. -/
def Solid (s : String) : Prop := ∀ c ∈ s.toList.head?, 0x80 ≤ c.toNat → Text.isBlank c = false

theorem isBlank_of_ascii : ∀ n < 0x80, Text.isBlank (Char.ofNat n) = true →
    isWordChar (Char.ofNat n) = false ∧ Char.ofNat n ≠ '-' ∧ Char.ofNat n ≠ '.' := by
  decide

instance (s : String) : Decidable (Solid s) :=
  inferInstanceAs (Decidable (∀ c ∈ s.toList.head?, _))

/-- No id begins with what could be a gap. -/
theorem exists_quote_head (solid : Solid s) : ∃ c more, (quote s).toList = c :: more ∧
    Text.isBlank c = false ∧ c ≠ '/' ∧ c ≠ '#' := by
  by_cases bare : isBare s = true
  · rw [quote, if_pos bare]
    rw [isBare, Bool.and_eq_true] at bare
    replace bare := bare.2
    rw [Solid] at solid
    generalize s.toList = chars at bare solid ⊢
    cases chars with
    | nil => cases bare
    | cons c cs =>
      -- A word begins with a letter, a numeral with its sign, its point or a digit.
      have start : isWordChar c = true ∨ c = '-' ∨ c = '.' := by
        simp only at bare
        split at bare
        · next start => exact .inl (by rw [isWordChar, start, Bool.true_or])
        · unfold isNumeral at bare
          split at bare
          · next same => exact .inr (.inl (List.cons.inj same).1)
          · obtain ⟨d, more, same, start⟩ := exists_numeralStart bare
            obtain ⟨rfl, -⟩ := List.cons.inj same
            simp only [isWordChar, Bool.or_eq_true, beq_iff_eq] at start ⊢
            exact start.elim (fun digit => .inl (.inr digit)) fun point => .inr (.inr point)
      refine ⟨c, cs, rfl, ?_, ?_, ?_⟩
      · by_cases ascii : c.toNat < 0x80
        · rw [Bool.eq_false_iff]
          intro blank
          have only := isBlank_of_ascii c.toNat ascii
          rw [Char.ofNat_toNat] at only
          simp [only blank] at start
        · exact solid c rfl (Nat.not_lt.mp ascii)
      · rintro rfl
        exact absurd start (by decide)
      · rintro rfl
        exact absurd start (by decide)
  · refine ⟨'"', escapeChars s.toList ++ ['"'], ?_, rfl, by decide, by decide⟩
    simp [quote, bare, escape]

theorem Cuts.id (solid : Solid s) (stops : isBare s = true → Stops rest) :
    Cuts ((quote s).toList ++ rest) [idToken s] rest := by
  obtain ⟨c, more, text, notBlank, notSlash, notHash⟩ := exists_quote_head solid
  rw [text, List.cons_append]
  refine Cuts.token notBlank notSlash notHash (by simp) fun line => ?_
  rw [← List.cons_append, ← text]
  exact nextToken_quote s line stops

/-- A text that is cut to its end. -/
theorem Cuts.lexemes {text : String} (cuts : Cuts text.toList tokens []) :
    ∃ made, lexemes text = .ok made ∧ made.map Lexeme.token = tokens := by
  obtain ⟨made, after, tokens, cut⟩ := cuts.cut (text.toList.length + 1 - tokens.length) 1
  have shorter := cuts.shorter
  rw [List.length_nil, Nat.add_zero] at shorter
  rw [Nat.sub_add_cancel (Nat.le_succ_of_le shorter)] at cut
  refine ⟨made, ?_, tokens⟩
  rw [Dot.lexemes, cut, Nat.succ_sub shorter]
  simp [lexemesWithin, skipGap, ok_bind]

end ControlFlow.Dot
