import ControlFlow.Dot.Lexeme
import Mathlib

/-! Ids are read as they are written. A quoted id ends at the first quote that has no backslash of
its own, and its backslashes are taken away again. A bare one is a single lexeme, a word or a
numeral, as long as what follows cannot go on with it. -/
namespace ControlFlow.Dot

variable {s : String} {cs rest : List Char} {c : Char}

/-! ## Quoted ids -/

theorem unescapeChars_escapeChars (cs : List Char) : unescapeChars (escapeChars cs) = cs := by
  induction cs with
  | nil => rfl
  | cons c cs ih =>
    rw [escapeChars]
    split
    · next special =>
      simp only [Bool.or_eq_true, beq_iff_eq] at special
      rcases special with rfl | rfl <;> rw [unescapeChars, ih]
    · next plain =>
      simp only [Bool.or_eq_true, beq_iff_eq, not_or] at plain
      rw [unescapeChars, ih] <;> simp_all

theorem scanQuoted_escapeChars (cs : List Char) (line : Nat) (rest : List Char) :
    ∃ after, scanQuoted line (escapeChars cs ++ '"' :: rest) =
      some (escapeChars cs, after, rest) := by
  induction cs generalizing line with
  | nil => exact ⟨line, rfl⟩
  | cons c cs ih =>
    rw [escapeChars]
    split
    · next special =>
      simp only [Bool.or_eq_true, beq_iff_eq] at special
      obtain ⟨after, scanned⟩ := ih line
      refine ⟨after, ?_⟩
      rcases special with rfl | rfl <;> simp [scanQuoted, scanned]
    · next plain =>
      simp only [Bool.or_eq_true, beq_iff_eq, not_or] at plain
      obtain ⟨after, scanned⟩ := ih (lineAfter line c)
      refine ⟨after, ?_⟩
      rw [List.cons_append, scanQuoted, scanned]
      · rfl
      all_goals simp_all

theorem nextToken_quoted (s : String) (line : Nat) (rest : List Char) :
    ∃ after, nextToken line ('"' :: (escapeChars s.toList ++ '"' :: rest)) =
      .ok (.id s true, after, rest) := by
  obtain ⟨after, scanned⟩ := scanQuoted_escapeChars s.toList line rest
  refine ⟨after, ?_⟩
  rw [nextToken, scanned]
  simp only [unescapeChars_escapeChars, String.ofList_toList]

/-! ## Marks -/

/-- A mark of one character begins nothing else. -/
theorem nextToken_mark {token : Token} (known : Token.ofChar? c = some token) (line : Nat)
    (rest : List Char) : nextToken line (c :: rest) = .ok (token, line, rest) := by
  have other {d : Char} (no : Token.ofChar? d = none) : c ≠ d := by
    rintro rfl
    rw [no] at known
    cases known
  have notQuote : c ≠ '"' := other rfl
  have notAngle : c ≠ '<' := other rfl
  have notDash : c ≠ '-' := other rfl
  rw [nextToken, known]
  all_goals simp_all

/-! ## Bare ids -/

/-- A text that cannot go on with a word or a numeral. -/
def Stops (rest : List Char) : Prop := ∀ c ∈ rest.head?, isWordChar c = false ∧ c ≠ '.'

theorem Stops.word (stops : Stops rest) : ∀ c ∈ rest.head?, isWordChar c = false :=
  fun c next => (stops c next).1

theorem takeWhile_stops {p : Char → Bool} (all : ∀ c ∈ cs, p c = true)
    (stops : ∀ c ∈ rest.head?, p c = false) : (cs ++ rest).takeWhile p = cs := by
  rw [List.takeWhile_append_of_pos all]
  cases rest with
  | nil => simp
  | cons c rest => simp [stops c rfl]

theorem dropWhile_stops {p : Char → Bool} (all : ∀ c ∈ cs, p c = true)
    (stops : ∀ c ∈ rest.head?, p c = false) : (cs ++ rest).dropWhile p = rest := by
  rw [List.dropWhile_append_of_pos all]
  cases rest with
  | nil => rfl
  | cons c rest => simp [stops c rfl]

theorem isDigit_of_isWordStart (start : isWordStart c = true) : c.isDigit = false := by
  have code : c.toNat = c.val.toNat := rfl
  simp only [isWordStart, Char.isAlpha, Char.isUpper, Char.isLower, Char.isDigit,
    UInt32.le_iff_toNat_le, Bool.or_eq_true, Bool.and_eq_true, decide_eq_true_eq, beq_iff_eq,
    Bool.and_eq_false_iff, decide_eq_false_iff_not, not_le, ge_iff_le] at start ⊢
  rcases start with ((upper | lower) | rfl) | beyond
  · simp at upper ⊢
    omega
  · simp at lower ⊢
    omega
  · decide
  · simp at beyond ⊢
    omega

/-- The first character of a word begins nothing else. -/
theorem isWordStart_only (start : isWordStart c = true) :
    Token.ofChar? c = none ∧ (c.isDigit || c == '.') = false ∧ c ≠ '"' ∧ c ≠ '<' ∧ c ≠ '-' := by
  have other {d : Char} (no : isWordStart d = false) : c ≠ d := by
    rintro rfl
    rw [no] at start
    cases start
  refine ⟨?_, ?_, other (by decide), other (by decide), other (by decide)⟩
  · unfold Token.ofChar?
    split
    all_goals first | rfl | exact absurd rfl (other (by decide))
  · rw [isDigit_of_isWordStart start, Bool.false_or, beq_eq_false_iff_ne]
    exact other (by decide)

theorem nextToken_word (start : isWordStart c = true) (word : ∀ d ∈ cs, isWordChar d = true)
    (ends : ∀ d ∈ rest.head?, isWordChar d = false) (line : Nat) :
    nextToken line (c :: (cs ++ rest)) = .ok (.id (String.ofList (c :: cs)) false, line, rest) := by
  obtain ⟨alone, notNumeral, notQuote, notAngle, notDash⟩ := isWordStart_only start
  rw [nextToken, alone]
  · simp only [notNumeral, start, if_true, takeWhile_stops word ends, dropWhile_stops word ends]
    rfl
  all_goals simp_all

/-- A numeral is scanned to its end. -/
theorem scanNumeral_stops (numeral : isUnsignedNumeral cs = true) (stops : Stops rest) :
    scanNumeral (cs ++ rest) = (cs, rest) ∧ cs.any Char.isDigit = true := by
  have ends : ∀ d ∈ rest.head?, d.isDigit = false := fun d next => by
    have no := (stops d next).1
    simp only [isWordChar, Bool.or_eq_false_iff] at no
    exact no.2
  have split : cs.takeWhile (· != '.') ++ cs.dropWhile (· != '.') = cs :=
    List.takeWhile_append_dropWhile
  have some {cs : List Char} (some : cs.isEmpty = false) (digits : ∀ d ∈ cs, d.isDigit = true) :
      cs.any Char.isDigit = true := by
    obtain ⟨d, member⟩ := List.exists_mem_of_ne_nil _ (List.isEmpty_eq_false_iff.mp some)
    exact List.any_eq_true.mpr ⟨d, member, digits d member⟩
  rw [isUnsignedNumeral] at numeral
  generalize cs.takeWhile (· != '.') = whole at numeral split
  cases dropped : cs.dropWhile (· != '.') with
  | nil =>
    rw [dropped, List.append_nil] at split
    subst split
    rw [dropped] at numeral
    simp only [Bool.and_eq_true, Bool.not_eq_true', List.all_eq_true] at numeral
    obtain ⟨filled, digits⟩ := numeral
    refine ⟨?_, some filled digits⟩
    rw [scanNumeral, takeWhile_stops digits ends, dropWhile_stops digits ends]
    cases rest with
    | nil => rfl
    | cons d rest =>
      have notPoint := (stops d rfl).2
      simp [notPoint]
  | cons point fraction =>
    obtain rfl : point = '.' := by
      have first := List.head?_dropWhile_not (fun c : Char => c != '.') cs
      rw [dropped] at first
      simpa using first
    rw [dropped] at split numeral
    subst split
    simp only [Bool.and_eq_true, Bool.not_eq_true', List.all_eq_true, Bool.and_eq_false_iff]
      at numeral
    obtain ⟨⟨digits, fractionDigits⟩, filled⟩ := numeral
    constructor
    · rw [List.append_assoc, List.cons_append, scanNumeral,
        takeWhile_stops digits (by simp), dropWhile_stops digits (by simp)]
      simp only [takeWhile_stops fractionDigits ends, dropWhile_stops fractionDigits ends]
    · rw [List.any_append, List.any_cons, Bool.or_eq_true]
      rcases filled with filled | filled
      · exact .inl (some filled digits)
      · exact .inr (some filled fractionDigits)

/-- The first character of a numeral behind its sign begins nothing else. -/
theorem numeralStart_only (start : (c.isDigit || c == '.') = true) :
    Token.ofChar? c = none ∧ c ≠ '"' ∧ c ≠ '<' ∧ c ≠ '-' ∧ c ≠ '>' := by
  have other {d : Char} (no : (d.isDigit || d == '.') = false) : c ≠ d := by
    rintro rfl
    rw [no] at start
    cases start
  refine ⟨?_, other (by decide), other (by decide), other (by decide), other (by decide)⟩
  unfold Token.ofChar?
  split
  all_goals first | rfl | exact absurd rfl (other (by decide))

theorem exists_numeralStart (numeral : isUnsignedNumeral cs = true) :
    ∃ c more, cs = c :: more ∧ (c.isDigit || c == '.') = true := by
  cases cs with
  | nil => cases numeral
  | cons c more =>
    refine ⟨c, more, rfl, ?_⟩
    by_cases point : c = '.'
    · rw [point]
      rfl
    · rw [isUnsignedNumeral, List.takeWhile_cons_of_pos (by simpa using point)] at numeral
      have digit : c.isDigit = true := by
        split at numeral <;> simp_all
      rw [digit, Bool.true_or]

theorem nextToken_signed (start : (c.isDigit || c == '.') = true) (line : Nat) (cs : List Char) :
    nextToken line ('-' :: c :: cs) = numeral line ['-'] (c :: cs) := by
  obtain ⟨-, -, -, notDash, notAngle⟩ := numeralStart_only start
  rw [nextToken, if_pos start]
  all_goals simp_all

theorem nextToken_unsigned (start : (c.isDigit || c == '.') = true) (line : Nat) (cs : List Char) :
    nextToken line (c :: cs) = numeral line [] (c :: cs) := by
  obtain ⟨alone, notQuote, notAngle, notDash, -⟩ := numeralStart_only start
  rw [nextToken, alone]
  · simp only [start, if_true]
  all_goals simp_all

/-- A numeral is read as it is written, with or without a sign. -/
theorem nextToken_numeral (numeral : isNumeral cs = true) (stops : Stops rest) (line : Nat) :
    nextToken line (cs ++ rest) = .ok (.id (String.ofList cs) false, line, rest) := by
  have follows : ∀ d ∈ rest.head?, (d.isAlpha || d == '_') = false := fun d next => by
    have no := (stops d next).1
    simp only [isWordChar, isWordStart, Bool.or_eq_false_iff] at no ⊢
    exact no.1.1
  have read (sign : List Char) {cs : List Char} (unsigned : isUnsignedNumeral cs = true) :
      Dot.numeral line sign (cs ++ rest) =
        .ok (.id (String.ofList (sign ++ cs)) false, line, rest) := by
    obtain ⟨scanned, digits⟩ := scanNumeral_stops unsigned stops
    rw [Dot.numeral, scanned]
    simp only [digits, Bool.not_true, Bool.false_eq_true, if_false]
    cases rest with
    | nil => rfl
    | cons d rest =>
      simp only [follows d rfl]
      rfl
  unfold isNumeral at numeral
  split at numeral
  · obtain ⟨c, more, rfl, start⟩ := exists_numeralStart numeral
    rw [List.cons_append, List.cons_append, nextToken_signed start, ← List.cons_append]
    exact read ['-'] numeral
  · obtain ⟨c, more, rfl, start⟩ := exists_numeralStart numeral
    rw [List.cons_append, nextToken_unsigned start]
    exact read [] numeral

/-! ## All ids -/

/-- The token of an id. -/
def idToken (s : String) : Token := .id s (!isBare s)

/-- An id is read as it is written, if what follows cannot go on with it. A quote ends it. -/
theorem nextToken_quote (s : String) (line : Nat) (stops : isBare s = true → Stops rest) :
    ∃ after, nextToken line ((quote s).toList ++ rest) = .ok (idToken s, after, rest) := by
  by_cases bare : isBare s = true
  · have kept : (idToken s) = .id (String.ofList s.toList) false := by
      rw [idToken, bare, String.ofList_toList]
      rfl
    have stops := stops bare
    rw [quote, if_pos bare, kept]
    rw [isBare, Bool.and_eq_true] at bare
    replace bare := bare.2
    refine ⟨line, ?_⟩
    generalize s.toList = chars at bare ⊢
    cases chars with
    | nil => cases bare
    | cons c cs =>
      simp only at bare
      split at bare
      · next start => exact nextToken_word start (List.all_eq_true.mp bare) stops.word line
      · exact nextToken_numeral bare stops line
  · obtain ⟨after, read⟩ := nextToken_quoted s line rest
    refine ⟨after, ?_⟩
    rw [quote, if_neg bare, idToken, Bool.eq_false_iff.mpr bare, escape]
    simpa using read

end ControlFlow.Dot
