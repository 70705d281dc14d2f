import ControlFlow.Text.NaturalOrder

/-! What makes control take an edge. The condition of an edge is free text; `Branch` is what that
text means, and its order is the order in which a node lists its successors. -/
namespace ControlFlow

/-- The condition under which an edge is taken. -/
inductive Branch where
  | whenTrue
  | whenFalse
  | case (value : String)
  | always
  | otherwise
deriving DecidableEq, Repr

namespace Branch

/-- The meaning of an edge's condition. Three words are reserved, every other text is the value
of a case, and an edge without a condition is always taken. -/
def ofCond : Option String → Branch
  | none => always
  | some "true" => whenTrue
  | some "false" => whenFalse
  | some "default" => otherwise
  | some value => case value

/-- The condition that is written on an edge. -/
def cond : Branch → Option String
  | whenTrue => some "true"
  | whenFalse => some "false"
  | case value => some value
  | always => none
  | otherwise => some "default"

/-- One of the two sides of a test. -/
def isTest : Branch → Bool
  | whenTrue | whenFalse => true
  | _ => false

/-- One of the arms of a switch. -/
def isArm : Branch → Bool
  | case _ | otherwise => true
  | _ => false

/-- The place of a kind of branch among the others. -/
def rank : Branch → Nat
  | whenTrue => 0
  | whenFalse => 1
  | case _ => 2
  | always => 3
  | otherwise => 4

/-- The value of a case, empty for the other branches. -/
def caseValue : Branch → String
  | case value => value
  | _ => ""

/-- By kind, cases among themselves by their values in natural order. -/
def compare : Branch → Branch → Ordering :=
  compareLex (compareOn rank) fun a b => Text.naturalCompare a.caseValue b.caseValue

end Branch

end ControlFlow
