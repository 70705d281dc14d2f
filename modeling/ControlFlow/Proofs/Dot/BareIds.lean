import ControlFlow.Proofs.Dot.Layout

/-! Which ids may stand bare is decided without cutting a text into tokens, and yet agrees with it:
a token without quotes is always a word or a numeral, and so its text is bare unless it is reserved.
Any other id is cut as one token all the same once it is quoted. -/
namespace ControlFlow.Dot

variable {s text : String} {line after : Nat} {cs rest digits sign : List Char} {c : Char}
  {token : Token}

/-! ## Tokens without quotes -/

/-- What is scanned as a numeral is one, if it has a digit. -/
theorem isUnsignedNumeral_of_scan (ran : scanNumeral cs = (digits, rest))
    (filled : digits.any Char.isDigit = true) : isUnsignedNumeral digits = true := by
  have noPoint : ∀ c ∈ cs.takeWhile Char.isDigit, (c != '.') = true := fun c member => by
    have digit : c.isDigit = true := List.mem_takeWhile_imp member
    rw [bne_iff_ne]
    rintro rfl
    cases digit
  have whole : (cs.takeWhile Char.isDigit).all Char.isDigit = true :=
    List.all_eq_true.mpr fun c member => List.mem_takeWhile_imp member
  rw [scanNumeral] at ran
  split at ran
  · next fraction _ =>
    cases ran
    have fractionDigits : (fraction.takeWhile Char.isDigit).all Char.isDigit = true :=
      List.all_eq_true.mpr fun c member => List.mem_takeWhile_imp member
    rw [isUnsignedNumeral, takeWhile_stops noPoint (by simp), dropWhile_stops noPoint (by simp)]
    simp only [whole, fractionDigits, Bool.true_and, Bool.not_eq_true', Bool.and_eq_false_iff,
      List.isEmpty_eq_false_iff]
    by_contra none
    simp only [not_or, ne_eq, not_not] at none
    rw [none.1, none.2] at filled
    cases filled
  · cases ran
    rw [isUnsignedNumeral, List.takeWhile_eq_self_iff.mpr noPoint,
      List.dropWhile_eq_nil_iff.mpr noPoint]
    simp only [whole, Bool.and_true, Bool.not_eq_true', List.isEmpty_eq_false_iff]
    intro none
    rw [none] at filled
    cases filled

theorem isBare_of_word (chars : s.toList = c :: cs) (start : isWordStart c = true)
    (word : ∀ d ∈ cs, isWordChar d = true) : isBare s = !isKeyword s := by
  rw [isBare, chars]
  simp only [start, if_true, List.all_eq_true.mpr word, Bool.and_true]

theorem isBare_of_numeral (numeral : isNumeral s.toList = true) : isBare s = !isKeyword s := by
  have noWord : ∀ c ∈ s.toList.head?, isWordStart c = false := by
    intro c first
    unfold isNumeral at numeral
    split at numeral
    · next same =>
      rw [same] at first
      obtain rfl := Option.some.inj first
      rfl
    · obtain ⟨d, more, same, start⟩ := exists_numeralStart numeral
      rw [same] at first
      obtain rfl := Option.some.inj first
      rw [Bool.eq_false_iff]
      intro word
      rw [(isWordStart_only word).2.1] at start
      cases start
  rw [isBare]
  cases chars : s.toList with
  | nil =>
    rw [chars] at numeral
    cases numeral
  | cons c cs =>
    rw [chars] at numeral noWord
    simp only [noWord c rfl, numeral, Bool.false_eq_true, if_false, Bool.and_true]

theorem isNumeral_of_unsigned (unsigned : isUnsignedNumeral cs = true) : isNumeral cs = true := by
  obtain ⟨c, more, rfl, start⟩ := exists_numeralStart unsigned
  have notDash := (numeralStart_only start).2.2.2.1
  rw [isNumeral]
  · exact unsigned
  · simpa using notDash

theorem exists_unsigned_of_numeral (ran : numeral line sign cs = .ok (.id s false, after, rest)) :
    ∃ digits, s.toList = sign ++ digits ∧ isUnsignedNumeral digits = true := by
  obtain ⟨digits, scanned, filled, is, -⟩ := numeral_eq_ok ran
  cases is
  exact ⟨digits, String.toList_ofList, isUnsignedNumeral_of_scan scanned filled⟩

/-- An id without quotes is bare unless it is reserved, in whatever text it stands. -/
theorem isBare_of_nextToken (ran : nextToken line cs = .ok (.id s false, after, rest)) :
    isBare s = !isKeyword s := by
  unfold nextToken at ran
  split at ran
  case h_6 c cs _ _ =>
    split at ran
    · obtain ⟨digits, chars, unsigned⟩ := exists_unsigned_of_numeral ran
      exact isBare_of_numeral (by rwa [chars])
    · cases ran
  case h_8 c cs _ _ _ _ _ _ =>
    split at ran
    · next mark known =>
      cases ran
      unfold Token.ofChar? at known
      split at known <;> cases known
    · split at ran
      · obtain ⟨digits, chars, unsigned⟩ := exists_unsigned_of_numeral ran
        exact isBare_of_numeral (isNumeral_of_unsigned (by rwa [chars]))
      · split at ran
        · next start =>
          cases ran
          exact isBare_of_word String.toList_ofList start
            fun d member => List.mem_takeWhile_imp member
        · cases ran
  case h_2 =>
    split at ran <;> cases ran
  all_goals cases ran

/-! ## Ids alone -/

theorem Cuts.quoted (s : String) (rest : List Char) :
    Cuts ('"' :: (escapeChars s.toList ++ '"' :: rest)) [.id s true] rest :=
  Cuts.token rfl (by decide) (by decide) (by simp; omega) fun line => nextToken_quoted s line rest

theorem Cuts.exists_lexeme (cuts : Cuts text.toList [token] []) :
    ∃ line, Dot.lexemes text = .ok [⟨token, line⟩] := by
  obtain ⟨made, cut, tokens⟩ := cuts.lexemes
  obtain ⟨⟨_, line⟩, rfl, rfl⟩ := List.map_eq_singleton_iff.mp tokens
  exact ⟨line, cut⟩

/-- The first lexeme of a text is read where the gap before it ends. -/
theorem exists_nextToken_of_lexemes {more : List Lexeme}
    (cut : lexemes text = .ok (⟨token, line⟩ :: more)) :
    ∃ cs after rest, nextToken line cs = .ok (token, after, rest) := by
  obtain ⟨⟨start, cs⟩, -, cut⟩ := bind_eq_ok_iff.mp cut
  cases cs with
  | nil => cases cut
  | cons c cs =>
    obtain ⟨⟨token, after, rest⟩, next, cut⟩ := bind_eq_ok_iff.mp cut
    obtain ⟨others, -, same⟩ := bind_eq_ok_iff.mp cut
    cases same
    exact ⟨c :: cs, after, rest, next⟩

/-- An id that does not begin with a blank beyond ASCII is bare exactly if it is read alone as what it
is, one token without quotes, and is no reserved word; and an id that is not bare is read as what it
is, one token in quotes, from the form in which it is written. -/
theorem isBare_iff_alone (s : String) :
    (Solid s → (isBare s = true ↔
      (∃ line, lexemes s = .ok [⟨.id s false, line⟩]) ∧ isKeyword s = false)) ∧
    (isBare s = false → ∃ line, lexemes (quote s) = .ok [⟨.id s true, line⟩]) := by
  constructor
  · intro solid
    constructor
    · intro bare
      have cuts : Cuts s.toList [.id s false] [] := by
        have alone : Cuts ((quote s).toList ++ []) [idToken s] [] :=
          Cuts.id solid fun _ => by simp [Stops]
        rwa [List.append_nil, quote, if_pos bare, idToken, bare] at alone
      rw [isBare, Bool.and_eq_true, Bool.not_eq_true'] at bare
      exact ⟨cuts.exists_lexeme, bare.1⟩
    · rintro ⟨⟨line, cut⟩, ordinary⟩
      obtain ⟨cs, after, rest, next⟩ := exists_nextToken_of_lexemes cut
      rw [isBare_of_nextToken next, ordinary, Bool.not_false]
  · intro quoted
    have cuts : Cuts (quote s).toList [.id s true] [] := by
      simpa [quote, quoted, escape] using Cuts.quoted s []
    exact cuts.exists_lexeme

/-- A numeral with a backslash and the end of a line behind it. In quotes these two do not vanish,
because the backslash gets one of its own. -/
theorem backslash_newline_alone : Solid "-1.\\\n" ∧ isBare "-1.\\\n" = false ∧
    ¬(∃ line, lexemes "-1.\\\n" = .ok [⟨.id "-1.\\\n" false, line⟩]) ∧
    ∃ line, lexemes (quote "-1.\\\n") = .ok [⟨.id "-1.\\\n" true, line⟩] := by
  have solid : Solid "-1.\\\n" := by
    rintro c ⟨⟩ beyond
    exact absurd beyond (by decide)
  have quoted : isBare "-1.\\\n" = false := rfl
  obtain ⟨unquoted_iff, read⟩ := isBare_iff_alone "-1.\\\n"
  refine ⟨solid, quoted, fun alone => ?_, read quoted⟩
  have bare := (unquoted_iff solid).mpr ⟨alone, rfl⟩
  rw [quoted] at bare
  cases bare

end ControlFlow.Dot
