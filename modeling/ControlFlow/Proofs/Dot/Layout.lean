import ControlFlow.Proofs.Dot.Lexemes
import ControlFlow.Proofs.Dot.Recognition

/-! Blanks and comments carry no meaning. Put in front of a text or behind one of its tokens, they
leave the tokens as they are. For that a token must end in front of them as it ended before: what a
scan takes depends on what it takes alone, and on the next character only in that the scan stops
there, as every scan does where a blank or a comment begins. -/
namespace ControlFlow.Dot

variable {gap : Gap} {line after : Nat} {cs rest : List Char} {token : Token}

/-- Blanks of ASCII, comments between `/*` and `*/`, and comments that end with their line. -/
inductive Layout : List Char → Prop where
  | nil : Layout []
  | blank {c : Char} {more : List Char} (ascii : c.toNat < 0x80) (blank : Text.isBlank c = true)
      (rest : Layout more) : Layout (c :: more)
  | blockComment {body more : List Char} (inside : ¬['*', '/'] <:+: body ++ ['*'])
      (rest : Layout more) : Layout ('/' :: '*' :: (body ++ '*' :: '/' :: more))
  | slashComment {body more : List Char} (oneLine : '\n' ∉ body) (rest : Layout more) :
      Layout ('/' :: '/' :: (body ++ '\n' :: more))
  | hashComment {body more : List Char} (oneLine : '\n' ∉ body) (rest : Layout more) :
      Layout ('#' :: (body ++ '\n' :: more))

/-! ## Passing over layout -/

theorem skipGap_lineComment {body : List Char} (oneLine : '\n' ∉ body) (line : Nat)
    (rest : List Char) :
    skipGap .lineComment line (body ++ '\n' :: rest) = skipGap .blank (line + 1) rest := by
  induction body with
  | nil => rfl
  | cons c body ih =>
    rw [List.mem_cons, not_or] at oneLine
    obtain ⟨first, others⟩ := oneLine
    rw [List.cons_append, skipGap, if_neg (by simpa using Ne.symm first), ih others]

theorem skipGap_blockComment (start : Nat) (afterStar : Bool) {body : List Char}
    (inside : ¬['*', '/'] <:+: (if afterStar then ['*'] else []) ++ (body ++ ['*'])) (line : Nat)
    (rest : List Char) :
    ∃ after, skipGap (.blockComment start afterStar) line (body ++ '*' :: '/' :: rest) =
      skipGap .blank after rest := by
  induction body generalizing afterStar line with
  | nil => exact ⟨lineAfter line '*', by simp [skipGap]⟩
  | cons c body ih =>
    have open' : (afterStar && c == '/') = false := by
      rw [Bool.and_eq_false_iff, beq_eq_false_iff_ne]
      by_contra closed
      simp only [not_or, Bool.not_eq_false, ne_eq, not_not] at closed
      obtain ⟨rfl, rfl⟩ := closed
      exact inside ⟨[], body ++ ['*'], rfl⟩
    have later : ¬['*', '/'] <:+: (if (c == '*') = true then ['*'] else []) ++ (body ++ ['*']) := by
      intro found
      refine inside (found.trans ?_)
      split
      · next star =>
        rw [beq_iff_eq.mp star]
        exact ⟨if afterStar then ['*'] else [], [], by simp⟩
      · exact ⟨(if afterStar then ['*'] else []) ++ [c], [], by simp⟩
    obtain ⟨after, passed⟩ := ih (c == '*') later (lineAfter line c)
    exact ⟨after, by rw [List.cons_append, skipGap, if_neg (Bool.eq_false_iff.mp open'), passed]⟩

theorem skipGap_layout {layout : List Char} (separates : Layout layout) (line : Nat)
    (rest : List Char) :
    ∃ after, skipGap .blank line (layout ++ rest) = skipGap .blank after rest := by
  induction separates generalizing line with
  | nil => exact ⟨line, rfl⟩
  | @blank c more ascii blank _ ih =>
    obtain ⟨after, passed⟩ := ih (lineAfter line c)
    exact ⟨after, by rw [List.cons_append, skipGap_blank blank, passed]⟩
  | @blockComment body more inside _ ih =>
    obtain ⟨between, comment⟩ := skipGap_blockComment line false
      (by simpa using inside) line (more ++ rest)
    obtain ⟨after, passed⟩ := ih between
    refine ⟨after, ?_⟩
    rw [← passed, ← comment]
    simp [skipGap]
  | @slashComment body more oneLine _ ih =>
    obtain ⟨after, passed⟩ := ih (line + 1)
    refine ⟨after, ?_⟩
    rw [← passed, ← skipGap_lineComment oneLine]
    simp [skipGap]
  | @hashComment body more oneLine _ ih =>
    obtain ⟨after, passed⟩ := ih (line + 1)
    refine ⟨after, ?_⟩
    rw [← passed, ← skipGap_lineComment oneLine, List.cons_append, skipGap]
    · simp [show Text.isBlank '#' = false from rfl]
    all_goals simp

/-! ## What a scan depends on -/

/-- What stands behind a scan can be replaced by a text that begins with the same character, or by one
at which every word and every numeral stops. -/
def StopsLike (rest other : List Char) : Prop := other.head? = rest.head? ∨ Stops other

theorem StopsLike.all {p : Char → Bool} {other : List Char} (like : StopsLike rest other)
    (stops : ∀ c ∈ rest.head?, p c = false)
    (always : ∀ c, isWordChar c = false → c ≠ '.' → p c = false) :
    ∀ c ∈ other.head?, p c = false := by
  intro c first
  rcases like with same | stop
  · exact stops c (same ▸ first)
  · exact always c (stop c first).1 (stop c first).2

/-- On which line a comment began does not matter, if it ends. -/
theorem skipGap_start {start : Nat} {afterStar : Bool} {result : Nat × List Char}
    (ran : skipGap (.blockComment start afterStar) line cs = .ok result) (other : Nat) :
    skipGap (.blockComment other afterStar) line cs = .ok result := by
  induction cs generalizing afterStar line with
  | nil => cases ran
  | cons c cs ih =>
    rw [skipGap] at ran ⊢
    split
    · next closed => rwa [if_pos closed] at ran
    · next opened =>
      rw [if_neg opened] at ran
      exact ih ran

/-- What stands before the rest is passed over from any line on, and whatever follows, if that begins
as the rest does. -/
def Passes (gap : Gap) (cs rest : List Char) : Prop :=
  ∃ skipped, cs = skipped ++ rest ∧ ∀ line other, other.head? = rest.head? →
    ∃ after, skipGap gap line (skipped ++ other) = .ok (after, other)

theorem Passes.append {next : Gap} (passes : Passes next cs rest) (used : List Char)
    (step : ∀ line cs', ∃ line', ∀ result, skipGap next line' cs' = .ok result →
      skipGap gap line (used ++ cs') = .ok result) : Passes gap (used ++ cs) rest := by
  obtain ⟨skipped, rfl, passes⟩ := passes
  refine ⟨used ++ skipped, (List.append_assoc ..).symm, fun line other alike => ?_⟩
  obtain ⟨line', taken⟩ := step line (skipped ++ other)
  obtain ⟨after, passed⟩ := passes line' other alike
  exact ⟨after, by rw [List.append_assoc, taken _ passed]⟩

theorem passes_of_skipGap (ran : skipGap gap line cs = .ok (after, rest)) : Passes gap cs rest := by
  fun_induction skipGap gap line cs with
  | case1 _ cs ih =>
    exact (ih ran).append ['/', '/'] fun line cs => ⟨line, fun _ passed => by
      simpa [skipGap] using passed⟩
  | case2 _ cs ih =>
    exact (ih ran).append ['/', '*'] fun line cs => ⟨line, fun _ passed => by
      simpa [skipGap] using skipGap_start passed line⟩
  | case3 => cases ran
  | case4 _ c cs _ _ _ blank ih =>
    exact (ih ran).append [c] fun line cs => ⟨lineAfter line c, fun _ passed => by
      rwa [List.singleton_append, skipGap_blank blank]⟩
  | case5 _ c cs _ _ _ _ hash ih =>
    rw [beq_iff_eq.mp hash]
    exact (ih ran).append ['#'] fun line cs => ⟨line, fun _ passed => by
      rw [List.singleton_append, skipGap]
      · exact passed
      all_goals simp⟩
  | case6 _ c cs _ _ notSlash notBlank notHash =>
    cases ran
    refine ⟨[], rfl, fun line other alike => ?_⟩
    cases other with
    | nil => cases alike
    | cons d other =>
      obtain rfl : d = c := Option.some.inj alike
      exact ⟨line, skipGap_solid (Bool.eq_false_iff.mpr notBlank) notSlash (by simpa using notHash)
        line other⟩
  | case7 _ c cs ends ih =>
    exact (ih ran).append [c] fun line cs => ⟨line + 1, fun _ passed => by
      rwa [List.singleton_append, skipGap, if_pos ends]⟩
  | case8 _ c cs inside ih =>
    exact (ih ran).append [c] fun line cs => ⟨line, fun _ passed => by
      rwa [List.singleton_append, skipGap, if_neg inside]⟩
  | case9 _ _ _ c cs closed ih =>
    exact (ih ran).append [c] fun line cs => ⟨line, fun _ passed => by
      rwa [List.singleton_append, skipGap, if_pos closed]⟩
  | case10 _ _ _ c cs opened ih =>
    exact (ih ran).append [c] fun line cs => ⟨lineAfter line c, fun _ passed => by
      rwa [List.singleton_append, skipGap, if_neg opened]⟩
  | case11 => cases ran
  | case12 gap line ended =>
    cases ran
    refine ⟨[], rfl, fun line other alike => ?_⟩
    obtain rfl := List.head?_eq_none_iff.mp alike
    refine ⟨line, ?_⟩
    rw [List.append_nil, skipGap]
    exact ended

/-! ## Tokens -/

theorem scanQuoted_local {raw : List Char} (ran : scanQuoted line cs = some (raw, after, rest)) :
    ∃ used, cs = used ++ rest ∧ ∀ line' other, ∃ after',
      scanQuoted line' (used ++ other) = some (raw, after', other) := by
  fun_induction scanQuoted line cs generalizing raw with
  | case1 =>
    cases ran
    exact ⟨['"'], rfl, fun line' other => ⟨line', rfl⟩⟩
  | case2 line cs ih =>
    obtain ⟨used, rfl, same⟩ := ih ran
    exact ⟨'\\' :: '\n' :: used, rfl, fun line' other => same (line' + 1) other⟩
  | case3 line c cs notNewline ih =>
    obtain ⟨⟨more, _, _⟩, ran, eq⟩ := Option.map_eq_some_iff.mp ran
    cases eq
    obtain ⟨used, rfl, same⟩ := ih ran
    refine ⟨'\\' :: c :: used, rfl, fun line' other => ?_⟩
    obtain ⟨after', ran⟩ := same line' other
    refine ⟨after', ?_⟩
    rw [List.cons_append, List.cons_append, scanQuoted, ran]
    · rfl
    · exact notNewline
  | case4 | case6 => cases ran
  | case5 line c cs notQuote _ pairs single ih =>
    obtain ⟨⟨more, _, _⟩, ran, eq⟩ := Option.map_eq_some_iff.mp ran
    cases eq
    obtain ⟨used, rfl, same⟩ := ih ran
    have notEscape : c ≠ '\\' := by
      rintro rfl
      cases follows : used ++ rest with
      | nil => exact single rfl follows
      | cons d ds => exact pairs d ds rfl follows
    refine ⟨c :: used, rfl, fun line' other => ?_⟩
    obtain ⟨after', ran⟩ := same (lineAfter line' c) other
    refine ⟨after', ?_⟩
    rw [List.cons_append, scanQuoted, ran]
    · rfl
    · exact notQuote
    all_goals simp [notEscape]

theorem dropWhile_ends {p : Char → Bool} (cs : List Char) :
    ∀ c ∈ (cs.dropWhile p).head?, p c = false := by
  intro c first
  have no := List.head?_dropWhile_not p cs
  rw [Option.mem_def.mp first] at no
  simpa using no

theorem StopsLike.takeWhile {p : Char → Bool} {cs other : List Char}
    (like : StopsLike (cs.dropWhile p) other)
    (always : ∀ c, isWordChar c = false → c ≠ '.' → p c = false) :
    (cs.takeWhile p ++ other).takeWhile p = cs.takeWhile p ∧
      (cs.takeWhile p ++ other).dropWhile p = other := by
  have all : ∀ c ∈ cs.takeWhile p, p c = true := fun c member => List.mem_takeWhile_imp member
  have ends : ∀ c ∈ other.head?, p c = false := like.all (dropWhile_ends cs) always
  exact ⟨takeWhile_stops all ends, dropWhile_stops all ends⟩

theorem isDigit_of_isWordChar {c : Char} (no : isWordChar c = false) : c.isDigit = false := by
  rw [isWordChar, Bool.or_eq_false_iff] at no
  exact no.2

theorem scanNumeral_local {digits : List Char} (ran : scanNumeral cs = (digits, rest)) :
    cs = digits ++ rest ∧ ∀ other, StopsLike rest other →
      scanNumeral (digits ++ other) = (digits, other) := by
  have always : ∀ c, isWordChar c = false → c ≠ '.' → c.isDigit = false :=
    fun _ no _ => isDigit_of_isWordChar no
  rw [scanNumeral] at ran
  split at ran
  · next fraction point =>
    cases ran
    constructor
    · rw [List.append_assoc, List.cons_append, List.takeWhile_append_dropWhile, ← point,
        List.takeWhile_append_dropWhile]
    · intro other like
      have digits : ∀ c ∈ cs.takeWhile Char.isDigit, c.isDigit = true :=
        fun c member => List.mem_takeWhile_imp member
      rw [scanNumeral, List.append_assoc, List.cons_append,
        takeWhile_stops digits (by simp), dropWhile_stops digits (by simp)]
      simp only [(like.takeWhile always).1, (like.takeWhile always).2]
  · next noPoint =>
    cases ran
    refine ⟨List.takeWhile_append_dropWhile.symm, fun other like => ?_⟩
    have noPoint' : ∀ c ∈ other.head?, (c == '.') = false := by
      refine like.all (fun c first => ?_) fun c _ other => by simpa using other
      rw [beq_eq_false_iff_ne]
      rintro rfl
      obtain ⟨more, same⟩ := List.head?_eq_some_iff.mp first
      exact noPoint more same
    rw [scanNumeral, (like.takeWhile always).1, (like.takeWhile always).2]
    cases other with
    | nil => rfl
    | cons c other =>
      have := noPoint' c rfl
      simp_all

/-- A numeral is what the scan takes, if that has a digit and no letter behind it. -/
theorem numeral_eq_ok {sign : List Char} (ran : numeral line sign cs = .ok (token, after, rest)) :
    ∃ digits, scanNumeral cs = (digits, rest) ∧ digits.any Char.isDigit = true ∧
      token = .id (String.ofList (sign ++ digits)) false ∧
      ∀ c ∈ rest.head?, (c.isAlpha || c == '_') = false := by
  rw [numeral] at ran
  generalize scanNumeral cs = result at ran
  obtain ⟨digits, behind⟩ := result
  simp only at ran
  split at ran
  · cases ran
  next filled =>
  rw [Bool.not_eq_true, Bool.not_eq_false'] at filled
  split at ran
  · split at ran
    · cases ran
    · next c _ noLetter =>
      cases ran
      exact ⟨digits, rfl, filled, rfl,
        fun d first => Option.some.inj first ▸ Bool.eq_false_iff.mpr noLetter⟩
  · cases ran
    exact ⟨digits, rfl, filled, rfl, by simp⟩

theorem numeral_local {sign : List Char} (ran : numeral line sign cs = .ok (token, after, rest)) :
    ∃ c used, cs = c :: used ++ rest ∧ ∀ line' other, StopsLike rest other →
      numeral line' sign (c :: used ++ other) = .ok (token, line', other) := by
  obtain ⟨digits, scanned, filled, rfl, noLetter⟩ := numeral_eq_ok ran
  obtain ⟨rfl, same⟩ := scanNumeral_local scanned
  obtain ⟨c, used, rfl⟩ : ∃ c used, digits = c :: used := by
    cases digits with
    | nil => cases filled
    | cons c used => exact ⟨c, used, rfl⟩
  refine ⟨c, used, rfl, fun line' other like => ?_⟩
  have noLetter' : ∀ c ∈ other.head?, (c.isAlpha || c == '_') = false := by
    refine like.all noLetter fun c no _ => ?_
    simp only [isWordChar, isWordStart, Bool.or_eq_false_iff] at no ⊢
    exact no.1.1
  rw [numeral, same other like]
  simp only [filled, Bool.not_true, Bool.false_eq_true, if_false]
  cases other with
  | nil => rfl
  | cons d other =>
    simp only [noLetter' d rfl]
    rfl

/-- A token is told by what it takes of a text, from any line on, whatever it stops at. -/
theorem nextToken_local (ran : nextToken line cs = .ok (token, after, rest)) :
    ∃ c used, cs = c :: used ++ rest ∧ ∀ line' other, StopsLike rest other →
      ∃ after', nextToken line' (c :: used ++ other) = .ok (token, after', other) := by
  fun_cases nextToken line cs
  case case2 cs raw between behind scanned =>
    rw [nextToken, scanned] at ran
    cases ran
    obtain ⟨used, rfl, same⟩ := scanQuoted_local scanned
    refine ⟨'"', used, rfl, fun line' other _ => ?_⟩
    obtain ⟨after', scanned'⟩ := same line' other
    exact ⟨after', by rw [List.cons_append, nextToken, scanned']⟩
  case case5 cs =>
    cases ran
    exact ⟨'-', ['>'], rfl, fun line' other _ => ⟨line', rfl⟩⟩
  case case6 cs =>
    cases ran
    exact ⟨'-', ['-'], rfl, fun line' other _ => ⟨line', rfl⟩⟩
  case case7 c cs _ _ start =>
    rw [nextToken_signed start] at ran
    obtain ⟨d, used, same, read⟩ := numeral_local ran
    obtain ⟨rfl, rfl⟩ := List.cons.inj same
    refine ⟨'-', c :: used, rfl, fun line' other like => ⟨line', ?_⟩⟩
    rw [List.cons_append, List.cons_append, nextToken_signed start]
    exact read line' other like
  case case10 c cs _ _ _ _ _ _ mark known =>
    rw [nextToken_mark known] at ran
    cases ran
    exact ⟨c, [], rfl, fun line' other _ => ⟨line', nextToken_mark known line' other⟩⟩
  case case11 c cs _ _ _ _ _ _ _ start =>
    rw [nextToken_unsigned start] at ran
    obtain ⟨d, used, same, read⟩ := numeral_local ran
    obtain ⟨rfl, rfl⟩ := List.cons.inj same
    refine ⟨c, used, rfl, fun line' other like => ⟨line', ?_⟩⟩
    rw [List.cons_append, nextToken_unsigned start]
    exact read line' other like
  case case12 c cs _ _ _ _ _ _ _ _ start =>
    have word : ∀ d ∈ cs.takeWhile isWordChar, isWordChar d = true :=
      fun d member => List.mem_takeWhile_imp member
    have ends : ∀ d ∈ (cs.dropWhile isWordChar).head?, isWordChar d = false := dropWhile_ends cs
    have split : c :: cs = c :: (cs.takeWhile isWordChar ++ cs.dropWhile isWordChar) := by
      rw [List.takeWhile_append_dropWhile]
    rw [split, nextToken_word start word ends] at ran
    cases ran
    exact ⟨c, cs.takeWhile isWordChar, split, fun line' other like =>
      ⟨line', nextToken_word start word (like.all ends fun _ no _ => no) line'⟩⟩
  case case1 | case4 | case9 => cases ran
  case case3 cs scanned =>
    rw [nextToken, scanned] at ran
    cases ran
  case case8 c cs _ _ noStart =>
    rw [nextToken, if_neg noStart] at ran
    · cases ran
    all_goals assumption
  case case13 c cs _ _ _ _ _ _ unknown noDigit noStart =>
    rw [nextToken, unknown] at ran
    · simp only [if_neg noDigit, if_neg noStart] at ran
      cases ran
    all_goals assumption

/-! ## Places behind tokens -/

/-- What is left of a text, cut from that line on, right behind one of its tokens. -/
inductive FollowsToken : Nat → List Char → List Char → Prop where
  | first {line start after : Nat} {text cs rest : List Char} {token : Token}
      (gap : skipGap .blank line text = .ok (start, cs))
      (next : nextToken start cs = .ok (token, after, rest)) : FollowsToken line text rest
  | later {line start after : Nat} {text cs rest place : List Char} {token : Token}
      (gap : skipGap .blank line text = .ok (start, cs))
      (next : nextToken start cs = .ok (token, after, rest))
      (behind : FollowsToken after rest place) : FollowsToken line text place

/-- A gap and the token behind it, cut off a text, are cut off whatever else goes on behind them. -/
theorem cuts_lexeme {start : Nat} {text : List Char} (gap : skipGap .blank line text = .ok (start, cs))
    (next : nextToken start cs = .ok (token, after, rest)) :
    ∃ lexeme, text = lexeme ++ rest ∧ ∀ other, StopsLike rest other →
      Cuts (lexeme ++ other) [token] other := by
  obtain ⟨skipped, rfl, passed⟩ := passes_of_skipGap gap
  obtain ⟨c, used, rfl, read⟩ := nextToken_local next
  refine ⟨skipped ++ c :: used, by simp, fun other like => ?_⟩
  rw [List.append_assoc, List.cons_append]
  exact Cuts.tokenBehind (by simp) (fun line => passed line (c :: (used ++ other)) rfl)
    fun line => read line other like

theorem FollowsToken.cuts {text place : List Char} (follows : FollowsToken line text place) :
    ∃ before tokens, text = before ++ place ∧ ∀ other, StopsLike place other →
      Cuts (before ++ other) tokens other := by
  induction follows with
  | first gap next =>
    obtain ⟨before, same, cuts⟩ := cuts_lexeme gap next
    exact ⟨before, _, same, cuts⟩
  | @later _ _ _ _ _ _ _ token gap next _ ih =>
    obtain ⟨lexeme, rfl, first⟩ := cuts_lexeme gap next
    obtain ⟨before, tokens, rfl, others⟩ := ih
    refine ⟨lexeme ++ before, token :: tokens, (List.append_assoc ..).symm, fun other like => ?_⟩
    rw [List.append_assoc]
    refine (first (before ++ other) ?_).trans (others other like)
    -- The token goes on with the same character, unless the place is right behind it.
    cases before with
    | nil => exact like
    | cons c before => exact .inl rfl

/-- Lexemes, as far as a text is long, are cut from its end. -/
theorem cuts_of_lexemesWithin {bound : Nat} {text : List Char} {made : List Lexeme}
    (enough : text.length < bound) (ran : lexemesWithin bound line text = .ok made) :
    Cuts text (made.map Lexeme.token) [] := by
  induction bound generalizing line text made with
  | zero => exact absurd enough (Nat.not_lt_zero _)
  | succ bound ih =>
    obtain ⟨⟨start, cs⟩, gap, ran⟩ := bind_eq_ok_iff.mp ran
    cases cs with
    | nil =>
      cases ran
      obtain ⟨skipped, rfl, passed⟩ := passes_of_skipGap gap
      refine Cuts.gap (Nat.zero_le _) fun line => ?_
      obtain ⟨after, passed⟩ := passed line [] rfl
      exact ⟨after, passed⟩
    | cons c cs =>
      obtain ⟨⟨token, after, rest⟩, next, ran⟩ := bind_eq_ok_iff.mp ran
      obtain ⟨others, inside, same⟩ := bind_eq_ok_iff.mp ran
      cases same
      obtain ⟨lexeme, rfl, first⟩ := cuts_lexeme gap next
      have first := first rest (.inl rfl)
      have shorter := first.shorter
      rw [List.length_singleton] at shorter
      exact first.trans (ih (by omega) inside)

/-- Where the beginning of a text is cut off, so is the rest. -/
theorem Cuts.rest_of_lexemes {text : String} {place : List Char} {tokens : List Token}
    {made : List Lexeme} (cuts : Cuts text.toList tokens place) (cut : Dot.lexemes text = .ok made) :
    ∃ more, Cuts place more [] ∧ made.map Lexeme.token = tokens ++ more := by
  obtain ⟨first, after, firstTokens, split⟩ := cuts.cut (text.toList.length + 1 - tokens.length) 1
  have shorter := cuts.shorter
  rw [Nat.sub_add_cancel (by omega), ← Dot.lexemes, cut] at split
  cases others : lexemesWithin (text.toList.length + 1 - tokens.length) after place with
  | error fault =>
    rw [others] at split
    cases split
  | ok more =>
    rw [others] at split
    cases split
    exact ⟨_, cuts_of_lexemesWithin (by omega) others, by rw [List.map_append, firstTokens]⟩

/-! ## Layout between tokens -/

theorem Layout.stops {layout : List Char} (separates : Layout layout) (filled : layout ≠ [])
    (rest : List Char) : Stops (layout ++ rest) := by
  rintro d first
  cases separates with
  | nil => exact absurd rfl filled
  | @blank c more ascii blank _ =>
    obtain rfl := Option.some.inj first
    have only := isBlank_of_ascii c.toNat ascii
    rw [Char.ofNat_toNat] at only
    exact ⟨(only blank).1, (only blank).2.2⟩
  | blockComment | slashComment | hashComment =>
    obtain rfl := Option.some.inj first
    decide

theorem Layout.cuts {layout : List Char} (separates : Layout layout) (rest : List Char) :
    Cuts (layout ++ rest) [] rest :=
  Cuts.gap (by simp) fun line => skipGap_layout separates line rest

/-- Layout in front of a text, or right behind one of its tokens, changes nothing of what the text is
read as. -/
theorem read_insert_layout {text : String} {before behind layout : List Char} {g : FlowGraph}
    (place : text.toList = before ++ behind)
    (between : before = [] ∨ FollowsToken 1 text.toList behind) (separates : Layout layout)
    (ran : read text = .ok g) : read (String.ofList (before ++ layout ++ behind)) = .ok g := by
  obtain ⟨tokens, cuts⟩ : ∃ tokens, ∀ other, StopsLike behind other →
      Cuts (before ++ other) tokens other := by
    rcases between with rfl | follows
    · exact ⟨[], fun other _ => Cuts.refl other⟩
    · obtain ⟨before', tokens, place', cuts⟩ := follows.cuts
      obtain rfl := List.append_cancel_right (place'.symm.trans place)
      exact ⟨tokens, cuts⟩
  have like : StopsLike behind (layout ++ behind) := by
    cases layout with
    | nil => exact .inl rfl
    | cons c more => exact .inr (separates.stops (List.cons_ne_nil c more) behind)
  obtain ⟨made, cut, -⟩ := bind_eq_ok_iff.mp ran
  obtain ⟨more, last, tokensMade⟩ := (place ▸ cuts behind (.inl rfl)).rest_of_lexemes cut
  have cuts' : Cuts (String.ofList (before ++ layout ++ behind)).toList (tokens ++ more) [] := by
    rw [String.toList_ofList, List.append_assoc]
    exact (cuts (layout ++ behind) like).trans ((separates.cuts behind).trans last)
  obtain ⟨made', cut', tokensMade'⟩ := cuts'.lexemes
  exact read_of_tokens cut cut' (tokensMade'.trans tokensMade.symm) ran

/-- Behind an id, in front of an arrow. -/
theorem read_comments_before_arrow :
    ∃ g, read "digraph\x7bA->B\x7d" = .ok g ∧ read "digraph\x7bA\t//->\n/***/#\n->B\x7d" = .ok g := by
  have first : FollowsToken 1 "digraph\x7bA->B\x7d".toList ['-', '>', 'B', '\x7d'] :=
    .later rfl rfl (.later rfl rfl (.first rfl rfl))
  have hash : Layout ('#' :: ([] ++ ['\n'])) := .hashComment (by decide) .nil
  have block : Layout ('/' :: '*' :: (['*'] ++ '*' :: '/' :: _)) := .blockComment (by decide) hash
  have slash : Layout ('/' :: '/' :: (['-', '>'] ++ '\n' :: _)) := .slashComment (by decide) block
  have layout : Layout ('\t' :: _) := .blank (by decide) rfl slash
  have place : "digraph\x7bA->B\x7d".toList =
      "digraph\x7bA".toList ++ ['-', '>', 'B', '\x7d'] := rfl
  obtain ⟨g, ran⟩ : ∃ g, read "digraph\x7bA->B\x7d" = .ok g := ⟨_, rfl⟩
  have inserted := read_insert_layout place (.inr first) layout ran
  exact ⟨g, ran, by simpa using inserted⟩

end ControlFlow.Dot
