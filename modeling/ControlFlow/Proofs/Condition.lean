import ControlFlow.Condition
import ControlFlow.Proofs.Dot.Ids

/-! The text of a compound condition tells the condition. Only joined operands stand in parentheses,
but each operand still ends where it can be seen: a label with its last character, a joined operand
with its own closing parenthesis, and a negation with what it negates. So the text of an operand,
whatever stands behind it, leaves no choice of the operand or of the rest. For that no label may look
like anything else in such a text. -/
namespace ControlFlow.Condition

variable {label : String} {e f left right left' right' : Condition} {rest rest' : List Char}

/-- A character that belongs to no label and no operator. -/
def isBreak (c : Char) : Bool := c == ' ' || c == '(' || c == ')'

/-- A label that can be told from operators and operands: it is not empty, has neither spaces nor
parentheses, and is no operator. -/
structure PlainLabel (label : String) : Prop where
  filled : label ≠ ""
  whole : ∀ c ∈ label.toList, isBreak c = false
  noOperator : label ∉ ["NOT", "AND", "OR"]

/-- The labels of a condition from left to right. -/
def labels : Condition → List String
  | leaf label => [label]
  | not inner => inner.labels
  | and left right | or left right => left.labels ++ right.labels

/-- A condition over plain labels. -/
def Plain (e : Condition) : Prop := ∀ label ∈ e.labels, PlainLabel label

theorem plain_leaf : (leaf label).Plain ↔ PlainLabel label := List.forall_mem_singleton

/-! ## Words -/

/-- Here a word ends: with the text, or before a space or a parenthesis. -/
def Breaks (rest : List Char) : Prop := ∀ c ∈ rest.head?, isBreak c = true

theorem breaks_cons {c : Char} (ends : isBreak c = true) (rest : List Char) :
    Breaks (c :: rest) := by
  rintro d ⟨⟩
  exact ends

/-- A word and what stands behind it are told by the text of both. -/
theorem word_unique {word word' : List Char} (whole : ∀ c ∈ word, isBreak c = false)
    (whole' : ∀ c ∈ word', isBreak c = false) (breaks : Breaks rest) (breaks' : Breaks rest')
    (same : word ++ rest = word' ++ rest') : word = word' ∧ rest = rest' := by
  have taken {word rest : List Char} (whole : ∀ c ∈ word, isBreak c = false)
      (breaks : Breaks rest) : (word ++ rest).takeWhile (!isBreak ·) = word ∧
        (word ++ rest).dropWhile (!isBreak ·) = rest := by
    have goesOn : ∀ c ∈ word, (!isBreak c) = true := fun c member => by simp [whole c member]
    have stops : ∀ c ∈ rest.head?, (!isBreak c) = false := fun c first => by simp [breaks c first]
    exact ⟨Dot.takeWhile_stops goesOn stops, Dot.dropWhile_stops goesOn stops⟩
  obtain ⟨word_eq, rest_eq⟩ := taken whole breaks
  obtain ⟨word_eq', rest_eq'⟩ := taken whole' breaks'
  exact ⟨by rw [← word_eq, same, word_eq'], by rw [← rest_eq, same, rest_eq']⟩

/-! ## Operands -/

/-- A condition as it stands in the text of another one. -/
def operand (e : Condition) : List Char := (e.operandText e.text).toList

/-- What two operands are joined by. -/
inductive Operator where
  | and
  | or

namespace Operator

def word : Operator → List Char
  | and => ['A', 'N', 'D']
  | or => ['O', 'R']

def join : Operator → Condition → Condition → Condition
  | and => Condition.and
  | or => Condition.or

variable {o o' : Operator}

theorem word_whole (o : Operator) : ∀ c ∈ o.word, isBreak c = false := by
  cases o <;> simp [word, isBreak]

theorem word_injective (same : o.word = o'.word) : o = o' := by
  cases o <;> cases o' <;> first | rfl | simp [word] at same

theorem plain_join (o : Operator) :
    (o.join left right).Plain ↔ left.Plain ∧ right.Plain := by
  cases o <;> exact List.forall_mem_append

theorem toList_text_join (o : Operator) (left right : Condition) :
    (o.join left right).text.toList =
      left.operand ++ ' ' :: (o.word ++ ' ' :: right.operand) := by
  cases o <;> simp [operand, text, join, word]

theorem operand_join (o : Operator) (left right : Condition) (rest : List Char) :
    (o.join left right).operand ++ rest =
      '(' :: (left.operand ++ ' ' :: (o.word ++ ' ' :: (right.operand ++ ')' :: rest))) := by
  cases o <;> simp [operand, operandText, isJoined, text, join, word]

end Operator

theorem exists_join (joins : e.isJoined = true) :
    ∃ (o : Operator) (left right : Condition), e = o.join left right := by
  cases e with
  | leaf | not => cases joins
  | and left right => exact ⟨.and, left, right, rfl⟩
  | or left right => exact ⟨.or, left, right, rfl⟩

theorem operand_not (e : Condition) (rest : List Char) :
    (not e).operand ++ rest = ['N', 'O', 'T'] ++ ' ' :: (e.operand ++ rest) := by
  simp [operand, operandText, isJoined, text]

/-- A label begins the text of no other operand. -/
theorem leaf_of_operand (plain : PlainLabel label) (breaks : Breaks rest)
    (same : label.toList ++ rest = f.operand ++ rest') : ∃ other, f = leaf other := by
  have noParenthesis (more : List Char) : label.toList ++ rest ≠ '(' :: more := by
    intro begins
    obtain ⟨c, cs, chars⟩ := List.exists_cons_of_ne_nil
      fun none => plain.filled (String.toList_eq_nil_iff.mp none)
    have whole := plain.whole c (by simp [chars])
    rw [chars, List.cons_append] at begins
    rw [(List.cons.inj begins).1] at whole
    cases whole
  cases f with
  | leaf other => exact ⟨other, rfl⟩
  | not f =>
    rw [operand_not] at same
    have operator : label.toList = ['N', 'O', 'T'] :=
      (word_unique plain.whole (by simp [isBreak]) breaks (breaks_cons rfl _) same).1
    have is : label = "NOT" := by
      rw [← String.toList_inj, operator]
      simp
    exact absurd (by simp [is]) plain.noOperator
  | and left right => exact absurd (same.trans (Operator.and.operand_join ..)) (noParenthesis _)
  | or left right => exact absurd (same.trans (Operator.or.operand_join ..)) (noParenthesis _)

/-- The text of an operand, whatever stands behind it, tells the operand and the rest. -/
def Told (e : Condition) : Prop := ∀ f rest rest', f.Plain → Breaks rest → Breaks rest' →
  e.operand ++ rest = f.operand ++ rest' → e = f ∧ rest = rest'

namespace Told

theorem leaf (plain : PlainLabel label) : (leaf label).Told := by
  intro f rest rest' plain' breaks breaks' same
  obtain ⟨other, rfl⟩ := leaf_of_operand plain breaks same
  obtain ⟨labels, rest⟩ := word_unique plain.whole (plain_leaf.mp plain').whole breaks breaks' same
  exact ⟨congrArg Condition.leaf (String.toList_injective labels), rest⟩

theorem not (inner : e.Told) : (not e).Told := by
  intro f rest rest' plain' breaks breaks' same
  have noParenthesis (more : List Char) : (Condition.not e).operand ++ rest ≠ '(' :: more := by
    simp [operand_not]
  cases f with
  | leaf label => obtain ⟨_, ⟨⟩⟩ := leaf_of_operand (plain_leaf.mp plain') breaks' same.symm
  | not f =>
    rw [operand_not, operand_not] at same
    have behind := (List.cons.inj (List.append_cancel_left same)).2
    obtain ⟨rfl, rest⟩ := inner f rest rest' plain' breaks breaks' behind
    exact ⟨rfl, rest⟩
  | and left right => exact absurd (same.trans (Operator.and.operand_join ..)) (noParenthesis _)
  | or left right => exact absurd (same.trans (Operator.or.operand_join ..)) (noParenthesis _)

theorem join_eq {o : Operator} (o' : Operator) (first : left.Told) (second : right.Told)
    (plain : (o'.join left' right').Plain)
    (same : (o.join left right).operand ++ rest = (o'.join left' right').operand ++ rest') :
    o.join left right = o'.join left' right' ∧ rest = rest' := by
  obtain ⟨plain, plain'⟩ := o'.plain_join.mp plain
  have space (rest : List Char) : Breaks (' ' :: rest) := breaks_cons rfl rest
  have close (rest : List Char) : Breaks (')' :: rest) := breaks_cons rfl rest
  rw [Operator.operand_join, Operator.operand_join] at same
  obtain ⟨rfl, operators⟩ := first _ _ _ plain (space _) (space _) (List.cons.inj same).2
  obtain ⟨words, halves⟩ := word_unique o.word_whole o'.word_whole (space _) (space _)
    (List.cons.inj operators).2
  obtain ⟨rfl, rests⟩ := second _ _ _ plain' (close _) (close _) (List.cons.inj halves).2
  rw [Operator.word_injective words]
  exact ⟨rfl, (List.cons.inj rests).2⟩

theorem join (o : Operator) (first : left.Told) (second : right.Told) :
    (o.join left right).Told := by
  intro f rest rest' plain' breaks breaks' same
  cases f with
  | leaf label =>
    obtain ⟨_, is⟩ := leaf_of_operand (plain_leaf.mp plain') breaks' same.symm
    cases o <;> cases is
  | not f => simp [o.operand_join, operand_not] at same
  | and left' right' => exact join_eq .and first second plain' same
  | or left' right' => exact join_eq .or first second plain' same

end Told

theorem told (plain : e.Plain) : e.Told := by
  induction e with
  | leaf label => exact .leaf (plain_leaf.mp plain)
  | not e inner => exact .not (inner plain)
  | and left right first second =>
    obtain ⟨plain, plain'⟩ := Operator.and.plain_join.mp plain
    exact .join .and (first plain) (second plain')
  | or left right first second =>
    obtain ⟨plain, plain'⟩ := Operator.or.plain_join.mp plain
    exact .join .or (first plain) (second plain')

/-! ## Whole texts -/

/-- The text of a joined condition goes on behind its first operand, so it is not the text of a
condition that needs no parentheses. -/
theorem text_ne_of_join {o : Operator} (plain : e.Plain) (single : e.isJoined = false)
    (plain' : (o.join left right).Plain) : e.text ≠ (o.join left right).text := by
  intro same
  have texts : e.operand ++ [] = left.operand ++ ' ' :: (o.word ++ ' ' :: right.operand) := by
    rw [← o.toList_text_join, ← same]
    simp [operand, operandText, single]
  have ends := told plain left [] _ (o.plain_join.mp plain').1 (by simp [Breaks])
    (breaks_cons rfl _) texts
  cases ends.2

/-- The text of a condition over plain labels tells the condition. -/
theorem text_eq_iff_of_plain (plain : e.Plain) (plain' : f.Plain) : e.text = f.text ↔ e = f := by
  refine ⟨fun same => ?_, congrArg text⟩
  have alike : e.isJoined = f.isJoined := by
    cases joins : e.isJoined <;> cases joins' : f.isJoined
    case false.true =>
      obtain ⟨o, left, right, rfl⟩ := exists_join joins'
      exact absurd same (text_ne_of_join plain joins plain')
    case true.false =>
      obtain ⟨o, left, right, rfl⟩ := exists_join joins
      exact absurd same.symm (text_ne_of_join plain' joins' plain)
    all_goals rfl
  have operands : e.operand ++ [] = f.operand ++ [] := by
    simp only [operand, operandText, alike, same]
  exact (told plain f [] [] plain' (by simp [Breaks]) (by simp [Breaks]) operands).1

/-- A negated conjunction and a conjunction with a negation have the same words. -/
theorem text_negated_and_ne : (not (and (leaf "A") (leaf "B"))).Plain ∧
    (and (not (leaf "A")) (leaf "B")).Plain ∧
    (not (and (leaf "A") (leaf "B"))).text ≠ (and (not (leaf "A")) (leaf "B")).text := by
  have plainLabel (label : String) (of : label ∈ ["A", "B"]) : PlainLabel label := by
    rw [List.mem_pair] at of
    rcases of with rfl | rfl <;> exact ⟨by decide, by simp [isBreak], by decide⟩
  have plain : (not (and (leaf "A") (leaf "B"))).Plain := plainLabel
  have plain' : (and (not (leaf "A")) (leaf "B")).Plain := plainLabel
  exact ⟨plain, plain', fun same => nomatch (text_eq_iff_of_plain plain plain').mp same⟩

end ControlFlow.Condition
