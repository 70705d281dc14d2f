import Mathlib
import ControlFlow.Branch

/-! The natural order of strings is total. Numbers are compared by their lengths and digits, and that
is to compare them by value; so chunks compare by kind and value, strings by their chunks, and where
these agree by their characters, so that only equal strings compare as equal. The order of branches is
total for the same reason. A run of digits is a chunk of its own wherever it stands, with the dash in
front of it where that is a sign; so two strings that go on with numbers of different value after the
same beginning are ordered by these, and what follows the numbers does not matter. -/
namespace ControlFlow

/-- A comparison that puts things in one strict order. -/
structure StrictlyOrders {α : Type} (cmp : α → α → Ordering) : Prop where
  eq_iff : ∀ a b, cmp a b = .eq ↔ a = b
  swap : ∀ a b, cmp b a = (cmp a b).swap
  lt_trans : ∀ a b c, cmp a b = .lt → cmp b c = .lt → cmp a c = .lt

theorem strictlyOrders {α : Type} {cmp : α → α → Ordering} [Std.TransCmp cmp]
    [Std.LawfulEqCmp cmp] : StrictlyOrders cmp where
  eq_iff _ _ := Std.LawfulEqCmp.compare_eq_iff_eq
  swap _ _ := Std.OrientedCmp.eq_swap
  lt_trans _ _ _ := Std.TransCmp.lt_trans

namespace Text

/-! ## Digits by value -/

/-- The value of a digit. -/
def digitValue (c : Char) : Nat := c.toNat - '0'.toNat

/-- The value of a run of digits, the most significant one first. -/
def digitsValue (digits : List Char) : Nat :=
  digits.foldl (fun value digit => 10 * value + digitValue digit) 0

section

variable {c d : Char} {digits digits' : List Char} {negative negative' : Bool}

/-- An increasing function keeps the order. -/
theorem compare_map {α β : Type} [LinearOrder α] [LinearOrder β] {f : α → β} (mono : StrictMono f)
    {a b : α} : compare (f a) (f b) = compare a b := by
  rw [← cmp_eq_compare, ← cmp_eq_compare, mono.cmp_map_eq]

theorem toNat_of_isDigit (digit : c.isDigit = true) : 48 ≤ c.toNat ∧ c.toNat ≤ 57 := by
  simpa [Char.isDigit, UInt32.le_iff_toNat_le] using digit

theorem digitValue_lt (digit : c.isDigit = true) : digitValue c < 10 := by
  have bounds := toNat_of_isDigit digit
  have zero : '0'.toNat = 48 := rfl
  rw [digitValue]
  omega

/-- Digits are ordered as characters as they are by value. -/
theorem digitValue_lt_digitValue (left : c.isDigit = true) (less : c < d) :
    digitValue c < digitValue d := by
  have bounds := toNat_of_isDigit left
  have zero : '0'.toNat = 48 := rfl
  have codes : c.toNat < d.toNat := less
  rw [digitValue, digitValue]
  omega

theorem digitsValue_cons (c : Char) (digits : List Char) :
    digitsValue (c :: digits) = digitValue c * 10 ^ digits.length + digitsValue digits := by
  have carried (value : Nat) :
      digits.foldl (fun value digit => 10 * value + digitValue digit) value =
        value * 10 ^ digits.length + digitsValue digits := by
    induction digits generalizing value with
    | nil => simp [digitsValue]
    | cons d digits ih =>
      have tail : digitsValue (d :: digits) =
          digitValue d * 10 ^ digits.length + digitsValue digits := by
        rw [digitsValue, List.foldl_cons, ih, Nat.mul_zero, Nat.zero_add]
      rw [List.foldl_cons, ih, tail, List.length_cons, Nat.pow_succ]
      ring
  rw [digitsValue, List.foldl_cons, carried, Nat.mul_zero, Nat.zero_add]

theorem digitsValue_lt (run : ∀ c ∈ digits, c.isDigit = true) :
    digitsValue digits < 10 ^ digits.length := by
  induction digits with
  | nil => decide
  | cons c digits ih =>
    obtain ⟨digit, run⟩ := List.forall_mem_cons.mp run
    have small := digitValue_lt digit
    have rest := ih run
    rw [digitsValue_cons, List.length_cons, Nat.pow_succ]
    nlinarith

theorem digitsValue_dropZeros (digits : List Char) :
    digitsValue (digits.dropWhile (· == '0')) = digitsValue digits := by
  induction digits with
  | nil => rfl
  | cons c digits ih =>
    by_cases zero : c = '0'
    · subst zero
      have nothing : digitValue '0' = 0 := rfl
      rw [List.dropWhile_cons_of_pos rfl, ih, digitsValue_cons, nothing, Nat.zero_mul, Nat.zero_add]
    · rw [List.dropWhile_cons_of_neg (by simpa using zero)]

/-- A run that does not begin with a zero is as large as its length says. -/
theorem le_digitsValue (digit : c.isDigit = true) (filled : c ≠ '0') :
    10 ^ digits.length ≤ digitsValue (c :: digits) := by
  have bounds := toNat_of_isDigit digit
  have zero : '0'.toNat = 48 := rfl
  have code : c.toNat ≠ 48 := fun same => filled (Char.toNat_inj.mp same)
  have positive : 0 < digitValue c := by
    rw [digitValue]
    omega
  rw [digitsValue_cons]
  exact Nat.le_add_right_of_le (Nat.le_mul_of_pos_left _ positive)

/-- Runs of one length are ordered by the first digit that differs. -/
theorem compare_of_length_eq (run : ∀ c ∈ digits, c.isDigit = true)
    (run' : ∀ c ∈ digits', c.isDigit = true) (length : digits.length = digits'.length) :
    compare digits digits' = compare (digitsValue digits) (digitsValue digits') := by
  induction digits generalizing digits' with
  | nil =>
    obtain rfl := List.length_eq_zero_iff.mp length.symm
    rfl
  | cons c digits ih =>
    obtain ⟨d, digits', rfl⟩ := List.exists_cons_of_length_eq_add_one length.symm
    obtain ⟨digit, run⟩ := List.forall_mem_cons.mp run
    obtain ⟨digit', run'⟩ := List.forall_mem_cons.mp run'
    replace length : digits.length = digits'.length := Nat.succ.inj length
    have rest := ih run run' length
    have small := digitsValue_lt run
    have small' := digitsValue_lt run'
    rw [digitsValue_cons, digitsValue_cons, ← length]
    rw [← length] at small'
    have first : compare (c :: digits) (d :: digits') =
        (compare c d).then (compare digits digits') := List.compareLex_cons_cons
    rw [first]
    rcases lt_trichotomy c d with less | rfl | more
    · have value := digitValue_lt_digitValue digit less
      rw [compare_lt_iff_lt.mpr less]
      refine (compare_lt_iff_lt.mpr ?_).symm
      nlinarith
    · rw [compare_eq_iff_eq.mpr rfl, rest]
      have shift : StrictMono (digitValue c * 10 ^ digits.length + ·) := add_right_strictMono
      exact (compare_map shift).symm
    · have value := digitValue_lt_digitValue digit' more
      rw [compare_gt_iff_gt.mpr more]
      refine (compare_gt_iff_gt.mpr ?_).symm
      nlinarith

/-- Without zeros in front, the longer run is the larger one. -/
theorem compare_length_then (run : ∀ c ∈ digits, c.isDigit = true)
    (run' : ∀ c ∈ digits', c.isDigit = true) (filled : ∀ c ∈ digits.head?, c ≠ '0')
    (filled' : ∀ c ∈ digits'.head?, c ≠ '0') :
    (compare digits.length digits'.length).then (compare digits digits') =
      compare (digitsValue digits) (digitsValue digits') := by
  have shorter {digits digits' : List Char} (run : ∀ c ∈ digits, c.isDigit = true)
      (run' : ∀ c ∈ digits', c.isDigit = true) (filled' : ∀ c ∈ digits'.head?, c ≠ '0')
      (less : digits.length < digits'.length) : digitsValue digits < digitsValue digits' := by
    obtain ⟨c, rest, rfl⟩ := List.exists_cons_of_length_pos (Nat.zero_lt_of_lt less)
    calc digitsValue digits < 10 ^ digits.length := digitsValue_lt run
      _ ≤ 10 ^ rest.length := Nat.pow_le_pow_right (by decide) (Nat.le_of_lt_succ less)
      _ ≤ digitsValue (c :: rest) := le_digitsValue (run' c List.mem_cons_self) (filled' c rfl)
  rcases lt_trichotomy digits.length digits'.length with less | same | more
  · rw [compare_lt_iff_lt.mpr less]
    exact (compare_lt_iff_lt.mpr (shorter run run' filled' less)).symm
  · rw [compare_eq_iff_eq.mpr same]
    exact compare_of_length_eq run run' same
  · rw [compare_gt_iff_gt.mpr more]
    exact (compare_gt_iff_gt.mpr (shorter run' run filled more)).symm

/-! ## Numbers by value -/

/-- What a number is worth. Minus zero is zero. -/
def signedValue : Bool → List Char → Int
  | true, digits => -(digitsValue digits : Int)
  | false, digits => digitsValue digits

theorem natAbs_signedValue (negative : Bool) (digits : List Char) :
    (signedValue negative digits).natAbs = digitsValue digits := by
  cases negative <;> simp [signedValue]

theorem isDigit_of_mem_dropZeros (run : ∀ c ∈ digits, c.isDigit = true) :
    ∀ c ∈ digits.dropWhile (· == '0'), c.isDigit = true := fun c member =>
  run c ((List.dropWhile_sublist _).mem member)

theorem head?_dropZeros_ne (digits : List Char) :
    ∀ c ∈ (digits.dropWhile (· == '0')).head?, c ≠ '0' := by
  intro c first
  have stopped := List.head?_dropWhile_not (· == '0') digits
  rw [Option.mem_def.mp first] at stopped
  simpa using stopped

/-- Zeros are worth nothing, and every other run is worth something. -/
theorem dropZeros_isEmpty (run : ∀ c ∈ digits, c.isDigit = true) :
    (digits.dropWhile (· == '0')).isEmpty = decide (digitsValue digits = 0) := by
  rw [← digitsValue_dropZeros digits]
  cases rest : digits.dropWhile (· == '0') with
  | nil => rfl
  | cons c cs =>
    have digit := isDigit_of_mem_dropZeros run c (rest ▸ List.mem_cons_self)
    have large : 10 ^ cs.length ≤ digitsValue (c :: cs) :=
      le_digitsValue digit (head?_dropZeros_ne digits c (by simp [rest]))
    have positive : 0 < digitsValue (c :: cs) := (Nat.pow_pos (by decide)).trans_le large
    simp [positive.ne']

/-- The sign of a number counts where it is worth less than zero. -/
theorem sign_eq (run : ∀ c ∈ digits, c.isDigit = true) :
    (negative && !(digits.dropWhile (· == '0')).isEmpty) =
      decide (signedValue negative digits < 0) := by
  rw [dropZeros_isEmpty run]
  cases negative with
  | false => simp [signedValue, Int.not_lt.mpr (Int.natCast_nonneg _)]
  | true => simp [signedValue, Nat.pos_iff_ne_zero]

/-- To compare lengths and digits is to compare values. -/
theorem compareNumbers_eq (run : ∀ c ∈ digits, c.isDigit = true)
    (run' : ∀ c ∈ digits', c.isDigit = true) :
    compareNumbers negative digits negative' digits' =
      compare (signedValue negative digits) (signedValue negative' digits') := by
  have magnitude := compare_length_then (isDigit_of_mem_dropZeros run)
    (isDigit_of_mem_dropZeros run') (head?_dropZeros_ne digits) (head?_dropZeros_ne digits')
  rw [digitsValue_dropZeros, digitsValue_dropZeros, ← natAbs_signedValue negative,
    ← natAbs_signedValue negative'] at magnitude
  unfold compareNumbers
  simp only [magnitude, sign_eq run, sign_eq run']
  generalize signedValue negative digits = a
  generalize signedValue negative' digits' = b
  by_cases below : a < 0 <;> by_cases below' : b < 0 <;> simp only [below, below', decide_true,
    decide_false]
  · have turned : StrictAnti fun n : Nat => -(n : Int) := fun m n less => by
      simpa using less
    have same := turned.cmp_map_eq a.natAbs b.natAbs
    rw [cmp_eq_compare, ← cmp_swap, cmp_eq_compare] at same
    rw [← same]
    congr 1 <;> omega
  · refine (compare_lt_iff_lt.mpr ?_).symm
    omega
  · refine (compare_gt_iff_gt.mpr ?_).symm
    omega
  · rw [← compare_map Int.natCast_strictMono]
    congr 1 <;> omega

end

/-! ## Where a string is cut -/

section

variable {c : Char} {before : Option Char} {digitNext negative : Bool} {cs digits rest : List Char}
  {front back more : List Chunk}

/-- What a character makes of the chunks behind it. -/
def extend (before : Option Char) (c : Char) (digitNext : Bool) : List Chunk → List Chunk :=
  if c.isDigit then joinDigit c
  else if c == '-' && digitNext && signAllowed before then negate
  else joinText c

theorem chunksAfter_cons : chunksAfter before (c :: cs) =
    extend before c (startsWithDigit cs) (chunksAfter (some c) cs) := by
  rw [chunksAfter, extend]
  split
  · rfl
  · split <;> rfl

/-- Only the first of the chunks is touched. -/
theorem extend_append (filled : front ≠ []) :
    extend before c digitNext (front ++ back) = extend before c digitNext front ++ back := by
  obtain ⟨chunk, front, rfl⟩ := List.exists_cons_of_ne_nil filled
  unfold extend
  split
  · cases chunk <;> rfl
  · split <;> cases chunk <;> rfl

theorem extend_ne_nil (more : digitNext = true → front ≠ []) :
    extend before c digitNext front ≠ [] := by
  unfold extend
  split
  · unfold joinDigit
    split <;> exact List.cons_ne_nil _ _
  · split
    · next sign =>
      simp only [Bool.and_eq_true] at sign
      unfold negate
      split
      · exact List.cons_ne_nil _ _
      · exact more sign.1.2
    · unfold joinText
      split <;> exact List.cons_ne_nil _ _

/-- Every character is part of a chunk. -/
theorem chunksAfter_ne_nil (filled : cs ≠ []) : chunksAfter before cs ≠ [] := by
  induction cs generalizing before with
  | nil => exact absurd rfl filled
  | cons c cs ih =>
    rw [chunksAfter_cons]
    refine extend_ne_nil fun digit => ih ?_
    rintro rfl
    cases digit

theorem startsWithDigit_append (filled : cs ≠ []) :
    startsWithDigit (cs ++ rest) = startsWithDigit cs := by
  obtain ⟨c, cs, rfl⟩ := List.exists_cons_of_ne_nil filled
  rfl

/-- A string is cut in front of a number unless the character there belongs to the number. -/
theorem chunksAfter_append (number : chunksAfter (cs.getLast?.or before) rest =
      .number negative digits :: more)
    (apart : ∀ c ∈ cs.getLast?, c.isDigit = false ∧ (c = '-' → startsWithDigit rest = false)) :
    chunksAfter before (cs ++ rest) = chunksAfter before cs ++ .number negative digits :: more := by
  induction cs generalizing before with
  | nil => exact number
  | cons c cs ih =>
    cases cs with
    | nil =>
      obtain ⟨plain, unsigned⟩ := apart c rfl
      rw [List.cons_append, List.nil_append, chunksAfter_cons, chunksAfter_cons]
      replace number : chunksAfter (some c) rest = .number negative digits :: more := number
      have text : ¬(c == '-' && startsWithDigit rest && signAllowed before) = true := by
        simp only [Bool.and_eq_true, beq_iff_eq, not_and, and_imp]
        rintro rfl digit
        cases (unsigned rfl).symm.trans digit
      rw [number, extend, if_neg (by simp [plain]), if_neg text]
      simp [extend, plain, startsWithDigit, chunksAfter, joinText]
    | cons d cs =>
      have filled : d :: cs ≠ [] := List.cons_ne_nil _ _
      rw [List.getLast?_cons_cons] at number apart
      rw [List.getLast?_cons, Option.some_or] at number
      have cut : chunksAfter (some c) (d :: cs ++ rest) =
          chunksAfter (some c) (d :: cs) ++ .number negative digits :: more :=
        ih (by rwa [List.getLast?_cons, Option.some_or]) apart
      rw [List.cons_append, chunksAfter_cons, cut, startsWithDigit_append filled,
        extend_append (chunksAfter_ne_nil filled), ← chunksAfter_cons]

/-- No sign follows a digit. -/
theorem signAllowed_digit (digit : c.isDigit = true) : signAllowed (some c) = false := by
  have bounds := toNat_of_isDigit digit
  have ascii : c.toNat < 0x80 := by omega
  simp [signAllowed, isAlphanumeric, ascii, Char.isAlphanum, digit]

/-- A run of digits is a chunk of its own, whatever follows it. -/
theorem chunksAfter_digits (filled : digits ≠ []) (run : ∀ c ∈ digits, c.isDigit = true)
    (ends : startsWithDigit rest = false) :
    chunksAfter before (digits ++ rest) =
      .number false digits :: chunksAfter digits.getLast? rest := by
  induction digits generalizing before with
  | nil => exact absurd rfl filled
  | cons c digits ih =>
    obtain ⟨digit, run⟩ := List.forall_mem_cons.mp run
    cases digits with
    | nil =>
      rw [List.cons_append, List.nil_append, chunksAfter_cons, extend, if_pos digit,
        List.getLast?_singleton]
      -- What follows the last digit is text: its first character is neither a digit nor a sign.
      cases rest with
      | nil => rfl
      | cons x rest =>
        have plain : ¬x.isDigit = true := by simpa [startsWithDigit] using ends
        rw [chunksAfter_cons, extend, if_neg plain, signAllowed_digit digit, Bool.and_false,
          if_neg Bool.false_ne_true]
        unfold joinText
        split <;> rfl
    | cons d digits =>
      rw [List.cons_append, chunksAfter_cons, extend, if_pos digit, ih (List.cons_ne_nil _ _) run,
        List.getLast?_cons_cons]
      rfl

/-- So is a run of digits with its sign. -/
theorem chunksAfter_signed (filled : digits ≠ []) (run : ∀ c ∈ digits, c.isDigit = true)
    (ends : startsWithDigit rest = false) (signed : signAllowed before = true) :
    chunksAfter before ('-' :: digits ++ rest) =
      .number true digits :: chunksAfter digits.getLast? rest := by
  obtain ⟨c, digits, rfl⟩ := List.exists_cons_of_ne_nil filled
  have digit : startsWithDigit (c :: digits ++ rest) = true := run c List.mem_cons_self
  rw [List.cons_append, chunksAfter_cons, chunksAfter_digits filled run ends, digit, extend,
    if_neg (by decide), if_pos (by simp [signed])]
  rfl

end

/-! ## Chunks by value -/

/-- Numbers come before text. -/
def Chunk.rank : Chunk → Nat
  | .number _ _ => 0
  | .text _ => 1

/-- What a number is worth, nothing for a text. -/
def Chunk.value : Chunk → Int
  | .number negative digits => signedValue negative digits
  | .text _ => 0

/-- The characters of a text, none for a number. -/
def Chunk.chars : Chunk → List Char
  | .number _ _ => []
  | .text chars => chars

/-- The order of chunks, told by their values. -/
def Chunk.compareByValue : Chunk → Chunk → Ordering :=
  compareLex (compareOn Chunk.rank) (compareLex (compareOn Chunk.value) (compareOn Chunk.chars))

/-- A number of which every character is a digit. -/
def Chunk.InDigits : Chunk → Prop
  | .number _ digits => ∀ c ∈ digits, c.isDigit = true
  | .text _ => True

theorem Chunk.compare_eq {x y : Chunk} (left : x.InDigits) (right : y.InDigits) :
    x.compare y = x.compareByValue y := by
  cases x with
  | number negative digits => cases y with
    | number negative' digits' =>
      simp [Chunk.compare, compareNumbers_eq left right, compareByValue, compareLex, compareOn,
        rank, value, chars]
    | text chars => rfl
  | text chars => cases y with
    | number negative digits => rfl
    | text chars' =>
      simp [Chunk.compare, compareByValue, compareLex, compareOn, rank, value, Chunk.chars]

instance : Std.TransCmp Chunk.compareByValue :=
  inferInstanceAs (Std.TransCmp
    (compareLex (compareOn Chunk.rank) (compareLex (compareOn Chunk.value) (compareOn Chunk.chars))))

/-- Only digits are put in front of a number. -/
theorem inDigits_extend {before : Option Char} {c : Char} {digitNext : Bool} {front : List Chunk}
    (all : ∀ chunk ∈ front, chunk.InDigits) :
    ∀ chunk ∈ extend before c digitNext front, chunk.InDigits := by
  unfold extend
  split
  · next digit =>
    unfold joinDigit
    split
    · obtain ⟨run, rest⟩ := List.forall_mem_cons.mp all
      exact List.forall_mem_cons.mpr ⟨List.forall_mem_cons.mpr ⟨digit, run⟩, rest⟩
    · exact List.forall_mem_cons.mpr ⟨List.forall_mem_singleton.mpr digit, all⟩
  · split
    · unfold negate
      split
      · obtain ⟨run, rest⟩ := List.forall_mem_cons.mp all
        exact List.forall_mem_cons.mpr ⟨run, rest⟩
      · exact all
    · unfold joinText
      split
      · exact List.forall_mem_cons.mpr ⟨trivial, (List.forall_mem_cons.mp all).2⟩
      · exact List.forall_mem_cons.mpr ⟨trivial, all⟩

theorem inDigits_chunksAfter (before : Option Char) (cs : List Char) :
    ∀ chunk ∈ chunksAfter before cs, chunk.InDigits := by
  induction cs generalizing before with
  | nil => exact List.forall_mem_nil _
  | cons c cs ih =>
    rw [chunksAfter_cons]
    exact inDigits_extend (ih (some c))

/-- Lists are compared alike where their elements are. -/
theorem compareLex_congr {α : Type} {cmp cmp' : α → α → Ordering} {xs ys : List α}
    (same : ∀ x ∈ xs, ∀ y ∈ ys, cmp x y = cmp' x y) :
    List.compareLex cmp xs ys = List.compareLex cmp' xs ys := by
  induction xs generalizing ys with
  | nil => cases ys <;> rfl
  | cons x xs ih => cases ys with
    | nil => rfl
    | cons y ys =>
      rw [List.compareLex_cons_cons, List.compareLex_cons_cons,
        same x List.mem_cons_self y List.mem_cons_self,
        ih fun x left y right =>
          same x (List.mem_cons_of_mem _ left) y (List.mem_cons_of_mem _ right)]

/-- Strings are compared by the values of their chunks. -/
theorem naturalCompare_eq : naturalCompare =
    compareLex (Ordering.byKey chunks (List.compareLex Chunk.compareByValue)) compare := by
  funext a b
  have same : List.compareLex Chunk.compare (chunks a) (chunks b) =
      List.compareLex Chunk.compareByValue (chunks a) (chunks b) :=
    compareLex_congr fun x left y right => Chunk.compare_eq
      (inDigits_chunksAfter none a.toList x left) (inDigits_chunksAfter none b.toList y right)
  rw [naturalCompare, same]
  rfl

instance : Std.TransCmp naturalCompare := by
  rw [naturalCompare_eq]
  infer_instance

instance : Std.LawfulEqCmp naturalCompare where
  compare_self := Std.ReflCmp.compare_self
  eq_of_compare same := by
    simp only [naturalCompare, Ordering.then_eq_eq] at same
    exact Std.LawfulEqCmp.eq_of_compare same.2

end Text

namespace Branch

instance : Std.TransCmp compare :=
  inferInstanceAs (Std.TransCmp
    (compareLex (compareOn rank) (Ordering.byKey caseValue Text.naturalCompare)))

/-- Branches of one kind are the same, or cases with values. -/
instance : Std.LawfulEqCmp compare where
  compare_self := Std.ReflCmp.compare_self
  eq_of_compare {a b} same := by
    have parts : Ord.compare a.rank b.rank = .eq ∧
        Text.naturalCompare a.caseValue b.caseValue = .eq := Ordering.then_eq_eq.mp same
    have rank : a.rank = b.rank := Std.LawfulEqCmp.eq_of_compare parts.1
    have value : a.caseValue = b.caseValue := Std.LawfulEqCmp.eq_of_compare parts.2
    cases a <;> cases b <;> simp_all [Branch.rank, caseValue]

end Branch

namespace Text

/-! ## Strings that go on with numbers -/

/-- Two lists that part ways are told apart by the first elements that differ. -/
theorem compareLex_append {α : Type} {cmp : α → α → Ordering} [Std.ReflCmp cmp] (front : List α)
    {x y : α} (xs ys : List α) (differ : cmp x y ≠ .eq) :
    List.compareLex cmp (front ++ x :: xs) (front ++ y :: ys) = cmp x y := by
  induction front with
  | nil =>
    rw [List.nil_append, List.nil_append, List.compareLex_cons_cons]
    cases first : cmp x y with
    | eq => exact absurd first differ
    | lt | gt => rfl
  | cons a front ih =>
    have same : cmp a a = .eq := Std.ReflCmp.compare_self
    rw [List.cons_append, List.cons_append, List.compareLex_cons_cons, same, ih]
    rfl

theorem compareByValue_number (m n : Bool) (d e : List Char) :
    Chunk.compareByValue (.number m d) (.number n e) =
      compare (signedValue m d) (signedValue n e) := by
  simp [Chunk.compareByValue, compareLex, compareOn, Chunk.rank, Chunk.value, Chunk.chars]

/-- Strings whose chunks part ways are told apart by the first chunks that differ. -/
theorem naturalCompare_of_chunks {a b : String} {front xs ys : List Chunk} {x y : Chunk}
    (left : chunks a = front ++ x :: xs) (right : chunks b = front ++ y :: ys)
    (differ : Chunk.compareByValue x y ≠ .eq) : naturalCompare a b = Chunk.compareByValue x y := by
  have chunks : List.compareLex Chunk.compareByValue (chunks a) (chunks b) =
      Chunk.compareByValue x y := by
    rw [left, right, compareLex_append front xs ys differ]
  rw [naturalCompare_eq]
  show (List.compareLex Chunk.compareByValue _ _).then _ = _
  rw [chunks]
  cases first : Chunk.compareByValue x y with
  | eq => exact absurd first differ
  | lt | gt => rfl

/-- A string that is a run of digits. -/
def IsRun (s : String) : Prop := s.toList ≠ [] ∧ ∀ c ∈ s.toList, c.isDigit = true

section

variable {p d s : String}

theorem chunks_run (run : IsRun d) (ends : startsWithDigit s.toList = false)
    (apart : ∀ c ∈ p.toList.getLast?, c.isDigit = false ∧ c ≠ '-') :
    chunks (p ++ d ++ s) =
      chunks p ++ .number false d.toList :: chunksAfter d.toList.getLast? s.toList := by
  rw [chunks, chunks, String.append_assoc, String.toList_append, String.toList_append]
  exact chunksAfter_append (chunksAfter_digits run.1 run.2 ends)
    fun c last => ⟨(apart c last).1, fun dash => absurd dash (apart c last).2⟩

theorem chunks_signed (run : IsRun d) (ends : startsWithDigit s.toList = false)
    (apart : ∀ c ∈ p.toList.getLast?, isAlphanumeric c = false ∧ c ≠ '_') :
    chunks (p ++ "-" ++ d ++ s) =
      chunks p ++ .number true d.toList :: chunksAfter d.toList.getLast? s.toList := by
  have signed : signAllowed (p.toList.getLast?.or none) = true := by
    cases last : p.toList.getLast? with
    | none => rfl
    | some c => simp [signAllowed, apart c last]
  rw [chunks, chunks, String.append_assoc, String.append_assoc, String.toList_append,
    String.toList_append, String.toList_append]
  refine chunksAfter_append (chunksAfter_signed run.1 run.2 ends signed) fun c last => ?_
  refine ⟨Bool.eq_false_iff.mpr fun digit => ?_, fun _ => rfl⟩
  have unsigned := signAllowed_digit digit
  simp [signAllowed, apart c last] at unsigned

end

/-- The natural order is a strict total order, and so is the order of branches. Two strings that begin
alike and go on with runs of digits of different value are ordered by these values if the beginning is
empty or ends in neither a digit nor a dash, in a letter or an underscore, say; if the runs follow a
dash that nothing stands before it could join, they are ordered by the negated values. -/
theorem naturalCompare_total_by_value :
    StrictlyOrders naturalCompare ∧ StrictlyOrders Branch.compare ∧
    ∀ d e s t : String, IsRun d → IsRun e → digitsValue d.toList ≠ digitsValue e.toList →
      startsWithDigit s.toList = false → startsWithDigit t.toList = false →
      (∀ p : String, (∀ c ∈ p.toList.getLast?, c.isDigit = false ∧ c ≠ '-') →
        naturalCompare (p ++ d ++ s) (p ++ e ++ t) =
          compare (digitsValue d.toList : Int) (digitsValue e.toList)) ∧
      ∀ p : String, (∀ c ∈ p.toList.getLast?, isAlphanumeric c = false ∧ c ≠ '_') →
        naturalCompare (p ++ "-" ++ d ++ s) (p ++ "-" ++ e ++ t) =
          compare (-(digitsValue d.toList : Int)) (-(digitsValue e.toList : Int)) := by
  refine ⟨strictlyOrders, strictlyOrders, fun d e s t left right differ endsLeft endsRight => ?_⟩
  constructor
  · intro p apart
    rw [naturalCompare_of_chunks (chunks_run left endsLeft apart)
      (chunks_run right endsRight apart), compareByValue_number]
    · rfl
    · rw [compareByValue_number, ne_eq, Std.LawfulEqCmp.compare_eq_iff_eq]
      exact fun same => differ (Int.ofNat.inj same)
  · intro p apart
    rw [naturalCompare_of_chunks (chunks_signed left endsLeft apart)
      (chunks_signed right endsRight apart), compareByValue_number]
    · rfl
    · rw [compareByValue_number, ne_eq, Std.LawfulEqCmp.compare_eq_iff_eq]
      exact fun same => differ (Int.ofNat.inj (neg_injective same))

theorem leading_zeros_by_value : IsRun "007" ∧ IsRun "12" ∧
    digitsValue "007".toList ≠ digitsValue "12".toList ∧
    startsWithDigit "-5".toList = false ∧ startsWithDigit ".x".toList = false ∧
    (∀ c ∈ "_B".toList.getLast?, c.isDigit = false ∧ c ≠ '-') ∧
    (∀ c ∈ "1, ".toList.getLast?, isAlphanumeric c = false ∧ c ≠ '_') ∧
    naturalCompare ("_B" ++ "007" ++ "-5") ("_B" ++ "12" ++ ".x") = .lt ∧
    naturalCompare ("1, " ++ "-" ++ "007" ++ "-5") ("1, " ++ "-" ++ "12" ++ ".x") = .gt := by
  have left : IsRun "007" := by simp [IsRun]
  have right : IsRun "12" := by simp [IsRun]
  have differ : digitsValue "007".toList ≠ digitsValue "12".toList := by decide
  have endsLeft : startsWithDigit "-5".toList = false := by simp [startsWithDigit]
  have endsRight : startsWithDigit ".x".toList = false := by simp [startsWithDigit]
  have word : ∀ c ∈ "_B".toList.getLast?, c.isDigit = false ∧ c ≠ '-' := by simp
  have list : ∀ c ∈ "1, ".toList.getLast?, isAlphanumeric c = false ∧ c ≠ '_' := by
    simp [isAlphanumeric]
  obtain ⟨-, -, byValue⟩ := naturalCompare_total_by_value
  obtain ⟨plain, signed⟩ := byValue "007" "12" "-5" ".x" left right differ endsLeft endsRight
  exact ⟨left, right, differ, endsLeft, endsRight, word, list, plain "_B" word, signed "1, " list⟩

end Text

end ControlFlow
