import ControlFlow.Text.Alphanumeric

/-! Natural order of strings. A string is cut into numbers and the text between them; numbers
compare by value, so that `B2` comes before `B10`, and strings that agree part by part compare
character by character, so that only equal strings are equal. -/
namespace ControlFlow.Text

/-- A part of a string: a run of digits with or without a sign, or the text between two runs. -/
inductive Chunk where
  | number (negative : Bool) (digits : List Char)
  | text (chars : List Char)
deriving DecidableEq, Repr

/-- Compares two numbers without computing their values. Zeros in front do not count; then the longer
number is the larger one, and of two equally long ones the first digit that differs decides. A sign
turns this round, but minus zero is zero. -/
def compareNumbers (negative : Bool) (digits : List Char) (negative' : Bool) (digits' : List Char) :
    Ordering :=
  let digits := digits.dropWhile (· == '0')
  let digits' := digits'.dropWhile (· == '0')
  let magnitude := (compare digits.length digits'.length).then (compare digits digits')
  match negative && !digits.isEmpty, negative' && !digits'.isEmpty with
  | false, false => magnitude
  | true, true => magnitude.swap
  | true, false => .lt
  | false, true => .gt

/-- Numbers come before text, and texts are compared character by character. -/
def Chunk.compare : Chunk → Chunk → Ordering
  | .number negative digits, .number negative' digits' =>
    compareNumbers negative digits negative' digits'
  | .number _ _, .text _ => .lt
  | .text _, .number _ _ => .gt
  | .text chars, .text chars' => Ord.compare chars chars'

/-- A dash is a sign only where nothing stands before it that it could join: at the start, or
after a character that is neither alphanumeric nor an underscore. -/
def signAllowed : Option Char → Bool
  | none => true
  | some c => !isAlphanumeric c && c != '_'

/-- Whether the first character is an ASCII digit. -/
def startsWithDigit : List Char → Bool
  | [] => false
  | c :: _ => c.isDigit

/-- Puts a digit in front of the run that the chunks begin with. -/
def joinDigit (c : Char) : List Chunk → List Chunk
  | .number _ digits :: rest => .number false (c :: digits) :: rest
  | rest => .number false [c] :: rest

/-- Puts a character in front of the text that the chunks begin with. -/
def joinText (c : Char) : List Chunk → List Chunk
  | .text chars :: rest => .text (c :: chars) :: rest
  | rest => .text [c] :: rest

/-- Gives the leading number a minus sign. -/
def negate : List Chunk → List Chunk
  | .number _ digits :: rest => .number true digits :: rest
  | rest => rest

/-- The chunks of a string that follows the character `before`, if there is one. -/
def chunksAfter (before : Option Char) : List Char → List Chunk
  | [] => []
  | c :: cs =>
    if c.isDigit then joinDigit c (chunksAfter (some c) cs)
    else if c == '-' && startsWithDigit cs && signAllowed before then
      negate (chunksAfter (some c) cs)
    else joinText c (chunksAfter (some c) cs)

/-- The chunks of a whole string. -/
def chunks (s : String) : List Chunk := chunksAfter none s.toList

/-- The natural order. Where all chunks agree, the strings themselves decide. -/
def naturalCompare (a b : String) : Ordering :=
  (List.compareLex Chunk.compare (chunks a) (chunks b)).then (compare a b)

/-- Sorts in natural order; equal elements keep their places. -/
def naturalSort (items : List String) : List String :=
  items.mergeSort fun a b => naturalCompare a b != .gt

end ControlFlow.Text
