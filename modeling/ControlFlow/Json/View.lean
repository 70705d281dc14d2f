import ControlFlow.Json.Reader
import ControlFlow.Json.Value

/-! Typed views of a JSON value: what it is as a string or as a map of strings, or what stands there
instead. They fail as reading the same value from a text does. -/
namespace ControlFlow.Json.Value

/-- What a value is called where something else is wanted. -/
def found : Value → Found
  | null => .null
  | boolean value => .boolean value
  | number value => .number value
  | string value => .string value
  | array _ => .sequence
  | object _ => .map

/-- The error for a value where another kind of value is wanted. -/
def mismatch (wanted : String) (value : Value) : ReadError ε := .wrongType value.found wanted

/-- A value as a string. -/
def asText : Value → Except (ReadError ε) String
  | string s => .ok s
  | value => .error (value.mismatch "a string")

/-- A value as a string or `null`. -/
def asText? : Value → Except (ReadError ε) (Option String)
  | null => .ok none
  | value => some <$> value.asText

/-- A value as a map of strings, all its entries in their order. -/
def asMap : Value → Except (ReadError ε) (List (String × String))
  | object members => members.mapM fun (key, value) => (key, ·) <$> value.asText
  | value => .error (value.mismatch "a map")

end ControlFlow.Json.Value
