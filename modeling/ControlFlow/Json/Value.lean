import ControlFlow.Json.Number

/-! JSON values. -/
namespace ControlFlow.Json

/-- A value. Members keep their order. -/
inductive Value where
  | null
  | boolean (value : Bool)
  | number (value : Number)
  | string (value : String)
  | array (items : List Value)
  | object (members : List (String × Value))

namespace Value

/-- A count. -/
def ofNat (n : Nat) : Value := .number (.whole n)

/-- An optional value, `null` if it is missing. -/
def ofOption (toValue : α → Value) : Option α → Value
  | some a => toValue a
  | none => .null

end Value

end ControlFlow.Json
