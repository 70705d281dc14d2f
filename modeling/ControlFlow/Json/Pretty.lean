import ControlFlow.Json.Value

/-! The written form of JSON values: one entry a line, indented by two blanks a level. -/
namespace ControlFlow.Json

/-- A digit in base sixteen. -/
def hexDigit (n : Nat) : Char := if n < 10 then Char.ofNat (48 + n) else Char.ofNat (87 + n)

/-- The form of a character inside a string. Only quotes, backslashes and control characters are
escaped. -/
def escapeChar (c : Char) : List Char :=
  match c with
  | '"' => ['\\', '"']
  | '\\' => ['\\', '\\']
  | '\x08' => ['\\', 'b']
  | '\t' => ['\\', 't']
  | '\n' => ['\\', 'n']
  | '\x0c' => ['\\', 'f']
  | '\r' => ['\\', 'r']
  | c =>
    if c.toNat < 0x20 then ['\\', 'u', '0', '0', hexDigit (c.toNat / 16), hexDigit (c.toNat % 16)]
    else [c]

/-- A string between quotes. -/
def stringText (s : String) : String :=
  "\"" ++ String.ofList (s.toList.flatMap escapeChar) ++ "\""

/-- The beginning of a line, `depth` levels deep. -/
def newline (depth : Nat) : String := "\n" ++ String.join (List.replicate depth "  ")

/-- Entries between brackets, each on a line of its own. -/
def bracketed (left right : String) (depth : Nat) (entries : List String) : String :=
  if entries.isEmpty then left ++ right
  else left ++ ",".intercalate (entries.map fun entry => newline (depth + 1) ++ entry) ++
    newline depth ++ right

mutual

/-- The text of a value that begins `depth` levels deep. -/
def Value.textAt (depth : Nat) : Value → String
  | .null => "null"
  | .boolean value => toString value
  | .number value => value.text
  | .string value => stringText value
  | .array items => bracketed "[" "]" depth (itemTexts (depth + 1) items)
  | .object members => bracketed "\x7b" "\x7d" depth (memberTexts (depth + 1) members)

/-- The texts of items. -/
def itemTexts (depth : Nat) : List Value → List String
  | [] => []
  | item :: rest => item.textAt depth :: itemTexts depth rest

/-- The texts of members. -/
def memberTexts (depth : Nat) : List (String × Value) → List String
  | [] => []
  | (key, value) :: rest =>
    (stringText key ++ ": " ++ value.textAt depth) :: memberTexts depth rest

end

/-- The text of a value. -/
def Value.text (value : Value) : String := value.textAt 0

end ControlFlow.Json
