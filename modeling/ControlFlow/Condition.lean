/-! Compound conditions: the tests of several blocks joined into one. A leaf is the label of the
block whose own test it stands for. -/
namespace ControlFlow

/-- A Boolean combination of block tests. -/
inductive Condition where
  | leaf (label : String)
  | not (inner : Condition)
  | and (left right : Condition)
  | or (left right : Condition)
deriving DecidableEq, Repr, Inhabited

namespace Condition

/-- Whether the text of a condition needs parentheses where it stands as an operand. -/
def isJoined : Condition → Bool
  | and _ _ | or _ _ => true
  | _ => false

/-- Puts the text of an operand in parentheses where its operator asks for them. -/
def operandText (operand : Condition) (text : String) : String :=
  if operand.isJoined then "(" ++ text ++ ")" else text

/-- The text of a condition. Operators have no precedence: a joined operand always stands in
parentheses. -/
def text : Condition → String
  | leaf label => label
  | not inner => "NOT " ++ inner.operandText inner.text
  | and left right =>
    left.operandText left.text ++ " AND " ++ right.operandText right.text
  | or left right =>
    left.operandText left.text ++ " OR " ++ right.operandText right.text

end Condition

end ControlFlow
