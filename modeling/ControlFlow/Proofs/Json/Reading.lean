import ControlFlow.Json.Pretty
import ControlFlow.Json.Reader
import ControlFlow.Proofs.Except

/-! What readers make of a text that has been printed. A printed string is read back character by
character, each behind its escape; blanks are passed over wherever they are put, so brackets give
back the entries between them, one after the other, and leave the text behind them as it is. -/
namespace ControlFlow.Json

variable {ε : Type} {blanks rest : List Char} {c : Char}

/-! ## Strings -/

theorem hexValue?_hexDigit : ∀ n < 16, hexValue? (hexDigit n) = some n := by decide

theorem scanUnit_hexDigits {n : Nat} (small : n < 256) (rest : List Char) :
    scanUnit ('0' :: '0' :: hexDigit (n / 16) :: hexDigit (n % 16) :: rest) = .ok (n, rest) := by
  have zero : hexValue? '0' = some 0 := rfl
  have high := hexValue?_hexDigit (n / 16) (by omega)
  have low := hexValue?_hexDigit (n % 16) (by omega)
  simp [scanUnit, zero, high, low, Nat.div_add_mod]

/-- A character is read from its form inside a string. -/
theorem readStringWithin_escapeChar (c : Char) (bound : Nat) (rest : List Char) :
    readStringWithin (bound + 1) (escapeChar c ++ rest) =
      (readStringWithin bound rest).map fun (chars, rest) => (c :: chars, rest) := by
  unfold escapeChar
  split
  case h_8 quote backslash _ _ _ _ _ =>
    split
    -- A control character stands as a code unit, which is no half of a surrogate pair.
    · next control =>
      have unit := scanUnit_hexDigits (n := c.toNat) (by omega) rest
      have inside : isTrailing c.toNat = false ∧ isLeading c.toNat = false := by
        simp [isTrailing, isLeading]
        omega
      simp [readStringWithin, readEscape, unit, inside, Char.ofNat_toNat, bind, Except.bind, pure,
        Except.pure, Except.map]
    · next printable =>
      simp only [List.cons_append, List.nil_append, readStringWithin]
      rw [if_neg (by simpa using quote), if_neg (by simpa using backslash), if_neg printable]
      rfl
  all_goals rfl

theorem readStringWithin_escaped {chars : List Char} {bound : Nat} (enough : chars.length < bound)
    (rest : List Char) :
    readStringWithin bound (chars.flatMap escapeChar ++ '"' :: rest) = .ok (chars, rest) := by
  induction chars generalizing bound with
  | nil =>
    obtain ⟨bound, rfl⟩ := Nat.exists_eq_add_one.mpr enough
    rfl
  | cons c chars ih =>
    obtain ⟨bound, rfl⟩ := Nat.exists_eq_add_one.mpr (Nat.zero_lt_of_lt enough)
    rw [List.flatMap_cons, List.append_assoc, readStringWithin_escapeChar,
      ih (Nat.lt_of_succ_lt_succ enough)]
    rfl

theorem escapeChar_ne_nil (c : Char) : escapeChar c ≠ [] := by
  unfold escapeChar
  split
  case h_8 => split <;> simp
  all_goals simp

theorem length_le_escaped (chars : List Char) :
    chars.length ≤ (chars.flatMap escapeChar).length := by
  induction chars with
  | nil => exact Nat.le_refl 0
  | cons c chars ih =>
    have some := List.length_pos_iff.mpr (escapeChar_ne_nil c)
    rw [List.flatMap_cons, List.length_append, List.length_cons]
    omega

theorem stringText_append (s : String) (rest : List Char) :
    (stringText s).toList ++ rest = '"' :: (s.toList.flatMap escapeChar ++ '"' :: rest) := by
  simp [stringText]

/-- A printed string is read back, behind its first quote. -/
theorem readString_escaped (s : String) (rest : List Char) :
    readString (s.toList.flatMap escapeChar ++ '"' :: rest) = .ok (s, rest) := by
  have enough : s.toList.length < (s.toList.flatMap escapeChar ++ '"' :: rest).length := by
    have := length_le_escaped s.toList
    rw [List.length_append, List.length_cons]
    omega
  rw [readString, readStringWithin_escaped enough, ok_bind]
  exact congrArg (fun read => Except.ok (read, rest)) String.ofList_toList

/-! ## Blanks -/

/-- Characters that are passed over. -/
def Blank (cs : List Char) : Prop := ∀ c ∈ cs, isBlank c = true

theorem blank_nil : Blank [] := List.forall_mem_nil _

theorem blank_space : Blank [' '] := List.forall_mem_singleton.mpr rfl

theorem blank_newline (depth : Nat) : Blank (newline depth).toList := by
  intro c member
  rw [newline, String.toList_append, List.mem_append] at member
  rcases member with line | indent
  · obtain rfl : c = '\n' := by simpa using line
    rfl
  · rw [String.toList_join, List.mem_flatMap] at indent
    obtain ⟨step, repeated, inside⟩ := indent
    rw [List.eq_of_mem_replicate repeated] at inside
    obtain rfl : c = ' ' := by simpa using inside
    rfl

theorem peek_blank (blank : Blank blanks) (solid : isBlank c = false) (rest : List Char) :
    (peek (blanks ++ c :: rest) : Except (ReadError ε) _) = .ok (c, rest) := by
  have skipped : skipBlanks (blanks ++ c :: rest) = c :: rest := by
    rw [skipBlanks, List.dropWhile_append_of_pos blank]
    simp [solid]
  rw [peek, skipped]

theorem peek_solid (solid : isBlank c = false) (rest : List Char) :
    (peek (c :: rest) : Except (ReadError ε) _) = .ok (c, rest) :=
  peek_blank blank_nil solid rest

/-! ## Readers -/

/-- A reader that gives a value for a text, whatever follows the text and whatever blanks stand
before it. -/
def Reads (reader : Reader ε α) (text : List Char) (value : α) : Prop :=
  ∀ {blanks : List Char}, Blank blanks → ∀ rest,
    reader (blanks ++ (text ++ rest)) = .ok (value, rest)

theorem reads_readText (s : String) : Reads (readText : Reader ε String) (stringText s).toList s := by
  intro blanks blank rest
  rw [stringText_append, readText, peek_blank blank rfl, ok_bind]
  exact congrArg ofScan (readString_escaped s rest)

theorem reads_readText? (s : String) :
    Reads (readText? : Reader ε (Option String)) (stringText s).toList (some s) := by
  intro blanks blank rest
  rw [readText?, reads_readText s blank rest, stringText_append, peek_blank blank rfl]
  rfl

theorem closing_blank (blank : Blank blanks) (solid : isBlank c = false) (rest : List Char) :
    (closing c : Reader ε Unit) (blanks ++ c :: rest) = .ok ((), rest) := by
  rw [closing, peek_blank blank solid, ok_bind]
  simp [pure, Except.pure]

theorem closing_solid (solid : isBlank c = false) (rest : List Char) :
    (closing c : Reader ε Unit) (c :: rest) = .ok ((), rest) :=
  closing_blank blank_nil solid rest

/-! ## Brackets -/

/-- What stands before an entry: a comma, unless it is the first one. -/
def separator : Bool → List Char
  | true => []
  | false => [',']

/-- Entries on lines of their own. -/
def layout (indent : List Char) : Bool → List (List Char) → List Char
  | _, [] => []
  | first, entry :: rest =>
    separator first ++ (indent ++ (entry ++ layout indent false rest))

/-- A bracketed text is the layout of its entries between the brackets; where there are none, not
even a new line is begun. -/
theorem bracketed_append (left right : String) (depth : Nat) (entries : List String) :
    ∃ outdent, Blank outdent ∧ ∀ rest, (bracketed left right depth entries).toList ++ rest =
      left.toList ++ (layout (newline (depth + 1)).toList true (entries.map String.toList) ++
        (outdent ++ (right.toList ++ rest))) := by
  have spread (indent : List Char) (entries : List (List Char)) :
      [','].intercalate (entries.map (indent ++ ·)) = layout indent true entries := by
    -- The first entry is kept out of the induction: no comma stands before it.
    cases entries with
    | nil => rfl
    | cons entry rest =>
      induction rest generalizing entry with
      | nil => simp [layout, separator]
      | cons next rest ih =>
        rw [List.map_cons, List.map_cons, List.intercalate_cons_cons, ← List.map_cons, ih next]
        simp [layout, separator]
  cases entries with
  | nil => exact ⟨[], blank_nil, fun rest => by simp [bracketed, layout]⟩
  | cons entry more =>
    refine ⟨(newline depth).toList, blank_newline depth, fun rest => ?_⟩
    rw [← spread]
    simp only [bracketed, List.isEmpty_cons, Bool.false_eq_true, if_false, String.toList_append,
      String.toList_intercalate, List.map_map, Function.comp_def, List.append_assoc]
    rfl

theorem nextItem_layout (first : Bool) (blank : Blank blanks) (solid : isBlank c = false)
    (inside : c ≠ ']') (rest : List Char) :
    (nextItem first : Reader ε Bool) (separator first ++ (blanks ++ c :: rest)) =
      .ok (true, c :: rest) := by
  have notEnd : (c == ']') = false := beq_false_of_ne inside
  cases first with
  | true =>
    rw [separator, List.nil_append, nextItem, peek_blank blank solid, ok_bind]
    simp [notEnd]
    rfl
  | false =>
    rw [separator, List.singleton_append, nextItem, peek_solid rfl, ok_bind]
    simp [peek_blank blank solid, ok_bind, inside]
    rfl

theorem nextItem_closing (first : Bool) (blank : Blank blanks) (rest : List Char) :
    (nextItem first : Reader ε Bool) (blanks ++ ']' :: rest) = .ok (false, ']' :: rest) := by
  rw [nextItem, peek_blank blank rfl]
  rfl

theorem nextKey_layout (first : Bool) (blank : Blank blanks) (rest : List Char) :
    (nextKey first : Reader ε Bool) (separator first ++ (blanks ++ '"' :: rest)) =
      .ok (true, rest) := by
  cases first with
  | true =>
    rw [separator, List.nil_append, nextKey, peek_blank blank rfl]
    rfl
  | false =>
    rw [separator, List.singleton_append, nextKey, peek_solid rfl, ok_bind]
    simp [peek_blank blank (c := '"') rfl, ok_bind]
    rfl

theorem nextKey_closing (first : Bool) (blank : Blank blanks) (rest : List Char) :
    (nextKey first : Reader ε Bool) (blanks ++ '\x7d' :: rest) = .ok (false, '\x7d' :: rest) := by
  rw [nextKey, peek_blank blank rfl]
  rfl

/-- A text that is read as an item: it begins with a character that neither is a blank nor closes
the brackets. -/
structure ReadsItem (item : Reader ε α) (text : List Char) (value : α) : Prop where
  reads : Reads item text value
  opens : ∃ c rest, text = c :: rest ∧ isBlank c = false ∧ c ≠ ']'

theorem readItemsWithin_layout {item : Reader ε α} {texts : List (List Char)} {values : List α}
    {indent outdent : List Char} (indented : Blank indent) (outdented : Blank outdent)
    (items : List.Forall₂ (ReadsItem item) texts values) {bound : Nat}
    (enough : texts.length < bound) (first : Bool) (rest : List Char) :
    readItemsWithin item bound first (layout indent first texts ++ (outdent ++ ']' :: rest)) =
      .ok (values, ']' :: rest) := by
  induction items generalizing bound first with
  | nil =>
    obtain ⟨bound, rfl⟩ := Nat.exists_eq_add_one.mpr enough
    rw [layout, List.nil_append, readItemsWithin, nextItem_closing first outdented]
    rfl
  | @cons text value texts values item items ih =>
    obtain ⟨bound, rfl⟩ := Nat.exists_eq_add_one.mpr (Nat.zero_lt_of_lt enough)
    obtain ⟨c, more, rfl, solid, inside⟩ := item.opens
    have here := item.reads blank_nil (layout indent false texts ++ (outdent ++ ']' :: rest))
    simp only [List.nil_append, List.cons_append] at here
    simp only [layout, List.append_assoc, List.cons_append, readItemsWithin]
    rw [nextItem_layout first indented solid inside, ok_bind]
    simp only [if_true]
    rw [here, ok_bind]
    simp only
    rw [ih (Nat.lt_of_succ_lt_succ enough)]
    rfl

theorem length_le_layout (indent : List Char) (first : Bool) (texts : List (List Char)) :
    texts.length ≤ (layout indent first texts).length + first.toNat := by
  induction texts generalizing first with
  | nil => exact Nat.zero_le _
  | cons text texts ih =>
    have tail := ih false
    cases first <;> simp [layout, separator] at tail ⊢ <;> omega

/-- The bound that a reader of brackets sets to itself is enough for all that stands between
them. -/
theorem length_lt_layout (indent outdent rest : List Char) (texts : List (List Char)) (c : Char) :
    texts.length < (layout indent true texts ++ (outdent ++ c :: rest)).length + 1 := by
  have bound := length_le_layout indent true texts
  simp only [List.length_append, List.length_cons, Bool.toNat_true] at bound ⊢
  omega

theorem reads_readSequence {item : Reader ε α} {texts : List String} {values : List α}
    (items : List.Forall₂ (ReadsItem item) (texts.map String.toList) values) (depth : Nat) :
    Reads (readSequence item) (bracketed "[" "]" depth texts).toList values := by
  intro blanks blank rest
  obtain ⟨outdent, outdented, text⟩ := bracketed_append "[" "]" depth texts
  have inside := readItemsWithin_layout (blank_newline (depth + 1)) outdented items
    (length_lt_layout (newline (depth + 1)).toList outdent rest _ ']') true rest
  rw [text, show "[".toList = ['['] from rfl, List.singleton_append, readSequence,
    peek_blank blank rfl, ok_bind]
  simp only [beq_self_eq_true, if_true]
  rw [show "]".toList = [']'] from rfl, List.singleton_append, inside, ok_bind]
  rfl

/-! ## Members -/

theorem member_append (key text : String) (rest : List Char) :
    (stringText key ++ ": " ++ text).toList ++ rest =
      '"' :: (key.toList.flatMap escapeChar ++ '"' :: ':' :: ([' '] ++ (text.toList ++ rest))) := by
  rw [String.toList_append, String.toList_append, List.append_assoc, List.append_assoc,
    stringText_append]
  rfl

theorem memberTexts_strings (depth : Nat) (entries : List (String × String)) :
    memberTexts depth (entries.map fun (key, value) => (key, .string value)) =
      entries.map fun (key, value) => stringText key ++ ": " ++ stringText value := by
  induction entries with
  | nil => rfl
  | cons entry entries ih =>
    rw [List.map_cons, List.map_cons, memberTexts, ih]
    rfl

theorem readEntriesWithin_layout (entries : List (String × String))
    {indent outdent : List Char} (indented : Blank indent) (outdented : Blank outdent)
    {bound : Nat} (enough : entries.length < bound) (first : Bool) (rest : List Char) :
    (readEntriesWithin bound first : Reader ε _)
        (layout indent first ((entries.map fun (key, value) =>
            stringText key ++ ": " ++ stringText value).map String.toList) ++
          (outdent ++ '\x7d' :: rest)) =
      .ok (entries, '\x7d' :: rest) := by
  induction entries generalizing bound first with
  | nil =>
    obtain ⟨bound, rfl⟩ := Nat.exists_eq_add_one.mpr enough
    rw [List.map_nil, List.map_nil, layout, List.nil_append, readEntriesWithin,
      nextKey_closing first outdented]
    rfl
  | cons entry entries ih =>
    obtain ⟨bound, rfl⟩ := Nat.exists_eq_add_one.mpr (Nat.zero_lt_of_lt enough)
    obtain ⟨key, value⟩ := entry
    have later := ih (Nat.lt_of_succ_lt_succ enough) false
    rw [List.map_cons, List.map_cons, layout]
    simp only [List.append_assoc]
    rw [member_append, readEntriesWithin, nextKey_layout first indented, ok_bind]
    simp only [if_true]
    rw [readString_escaped]
    simp only [ofScan, Except.mapError, ok_bind]
    rw [closing_solid rfl, ok_bind, reads_readText value blank_space, ok_bind]
    simp only
    rw [later]
    rfl

/-- A map that is printed with strings for its values. -/
theorem reads_readMap (entries : List (String × String)) (depth : Nat) :
    Reads (readMap : Reader ε _)
      ((Value.object (entries.map fun (key, value) => (key, .string value))).textAt depth).toList
      entries := by
  intro blanks blank rest
  obtain ⟨outdent, outdented, text⟩ := bracketed_append "\x7b" "\x7d" depth
    (entries.map fun (key, value) => stringText key ++ ": " ++ stringText value)
  have enough := length_lt_layout (newline (depth + 1)).toList outdent rest
    ((entries.map fun (key, value) => stringText key ++ ": " ++ stringText value).map
      String.toList) '\x7d'
  rw [List.length_map, List.length_map] at enough
  have inside := readEntriesWithin_layout (ε := ε) entries (blank_newline (depth + 1)) outdented
    enough true rest
  rw [Value.textAt, memberTexts_strings, text, show "\x7b".toList = ['\x7b'] from rfl,
    List.singleton_append, readMap, peek_blank blank rfl, ok_bind]
  simp only [beq_self_eq_true, if_true]
  rw [show "\x7d".toList = ['\x7d'] from rfl, List.singleton_append, inside, ok_bind]
  rfl

end ControlFlow.Json
