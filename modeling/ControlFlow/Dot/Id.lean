/-! Ids of the DOT language. An id is written bare where that reads back as the same id, and
between double quotes otherwise. -/
namespace ControlFlow.Dot

/-- The words that a bare id cannot be, however they are capitalised. -/
def keywords : List String := ["node", "edge", "graph", "digraph", "subgraph", "strict"]

/-- The text with small letters for the capital letters of ASCII. -/
def lowerAscii (s : String) : String := String.ofList (s.toList.map Char.toLower)

/-- Whether an id is one of the reserved words. -/
def isKeyword (s : String) : Bool := keywords.contains (lowerAscii s)

/-- A character that a word can begin with: an ASCII letter, an underscore or any character beyond
ASCII. -/
def isWordStart (c : Char) : Bool := c.isAlpha || c == '_' || c.toNat ≥ 0x80

/-- A character that a word can go on with. -/
def isWordChar (c : Char) : Bool := isWordStart c || c.isDigit

/-- The digits around a point, at least one of them, or digits alone. -/
def isUnsignedNumeral (cs : List Char) : Bool :=
  let whole := cs.takeWhile (· != '.')
  match cs.dropWhile (· != '.') with
  | [] => !whole.isEmpty && whole.all Char.isDigit
  | _ :: fraction =>
    whole.all Char.isDigit && fraction.all Char.isDigit && !(whole.isEmpty && fraction.isEmpty)

/-- A numeral with or without a sign. -/
def isNumeral : List Char → Bool
  | '-' :: cs => isUnsignedNumeral cs
  | cs => isUnsignedNumeral cs

/-- Whether an id can be written as it is: a word that is not reserved, or a numeral. -/
def isBare (s : String) : Bool :=
  !isKeyword s &&
    match s.toList with
    | [] => false
    | c :: cs => if isWordStart c then cs.all isWordChar else isNumeral (c :: cs)

/-- Puts a backslash before each quote and each backslash. -/
def escapeChars : List Char → List Char
  | [] => []
  | c :: cs => if c == '"' || c == '\\' then '\\' :: c :: escapeChars cs else c :: escapeChars cs

/-- Takes away the backslash before each quote and each backslash. Before any other character it
stays, and so does a last one. -/
def unescapeChars : List Char → List Char
  | '\\' :: '"' :: cs => '"' :: unescapeChars cs
  | '\\' :: '\\' :: cs => '\\' :: unescapeChars cs
  | '\\' :: c :: cs => '\\' :: c :: unescapeChars cs
  | c :: cs => c :: unescapeChars cs
  | [] => []

def escape (s : String) : String := String.ofList (escapeChars s.toList)

def unescape (s : String) : String := String.ofList (unescapeChars s.toList)

/-- The written form of an id. -/
def quote (s : String) : String := if isBare s then s else "\"" ++ escape s ++ "\""

end ControlFlow.Dot
