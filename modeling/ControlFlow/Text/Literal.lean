import ControlFlow.Text.Printable

/-! String literals: the form in which an error text shows an optional label, so that an absent
label, an empty one and one with blanks in it can be told apart. -/
namespace ControlFlow.Text

/-- The digits of a number in base sixteen, small letters, without leading zeros. -/
def hexText (n : Nat) : String := String.ofList (Nat.toDigits 16 n)

/-- The form of one character inside a literal. A character that is not shown is given by its
code point. -/
def escapeLiteralChar (c : Char) : String :=
  match c with
  | '\x00' => "\\0"
  | '\t' => "\\t"
  | '\n' => "\\n"
  | '\r' => "\\r"
  | '\\' => "\\\\"
  | '"' => "\\\""
  | c => if isShown c then c.toString else "\\u\x7b" ++ hexText c.toNat ++ "\x7d"

/-- A string between double quotes, its characters escaped one by one. -/
def literal (s : String) : String :=
  "\"" ++ String.join (s.toList.map escapeLiteralChar) ++ "\""

/-- The form of an optional label. -/
def optionLiteral : Option String → String
  | none => "None"
  | some s => "Some(" ++ literal s ++ ")"

end ControlFlow.Text
