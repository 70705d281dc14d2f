import ControlFlow.Json.Scan
import ControlFlow.Text.Literal

/-! Typed reading of a JSON text, from left to right: the first thing that is wrong is reported,
be it the text itself or a value that does not fit. -/
namespace ControlFlow.Json

/-- What stands where something else is wanted. -/
inductive Found where
  | null
  | boolean (value : Bool)
  | number (value : Number)
  | string (value : String)
  | sequence
  | map
deriving DecidableEq, Repr

/-- The form of what was found in an error text. -/
def Found.text : Found → String
  | null => "null"
  | boolean value => "boolean \x60" ++ toString value ++ "\x60"
  | number value =>
    (match value with
      | .whole _ => "integer"
      | .scaled .. => "floating point") ++ " \x60" ++ value.text ++ "\x60"
  | string value => "string " ++ Text.literal value
  | sequence => "sequence"
  | map => "map"

/-- Why a text is not read as values of some kind. -/
inductive ReadError (ε : Type) where
  | text (fault : Fault)
  | wrongType (found : Found) (wanted : String)
  | missingField (name : String)
  | duplicateField (name : String)
  | wrongLength (found : Nat) (wanted : String)
  /-- The values fit, but together they make nothing. -/
  | rejected (cause : ε)
deriving DecidableEq, Repr

/-- The text of an error in the values, if that is what it is. -/
def ReadError.message? (causeText : ε → String) : ReadError ε → Option String
  | text _ => none
  | wrongType found wanted => some ("invalid type: " ++ found.text ++ ", expected " ++ wanted)
  | missingField name => some ("missing field \x60" ++ name ++ "\x60")
  | duplicateField name => some ("duplicate field \x60" ++ name ++ "\x60")
  | wrongLength found wanted =>
    some ("invalid length " ++ toString found ++ ", expected " ++ wanted)
  | rejected cause => some (causeText cause)

/-- Reads the beginning of a text and gives what is left of it. -/
abbrev Reader (ε α : Type) := List Char → Except (ReadError ε) (α × List Char)

/-- A fault of the text, as an error of reading. -/
def ofScan (result : Except Fault α) : Except (ReadError ε) α := result.mapError .text

/-- The text behind its blanks, which has to go on. -/
def peek (cs : List Char) : Except (ReadError ε) (Char × List Char) :=
  match skipBlanks cs with
  | [] => .error (.text .cutOff)
  | c :: rest => .ok (c, rest)

/-- The error for a value that begins with `c` where another kind of value is wanted. A scalar is
read to its end first. -/
def mismatch (wanted : String) (c : Char) (cs : List Char) : ReadError ε :=
  let given {α : Type} (found : α → Found) (result : Except Fault α) : ReadError ε :=
    match result with
    | .ok value => .wrongType (found value) wanted
    | .error fault => .text fault
  match c with
  | 'n' => given (fun _ => .null) (scanWord ['u', 'l', 'l'] cs)
  | 't' => given (fun _ => .boolean true) (scanWord ['r', 'u', 'e'] cs)
  | 'f' => given (fun _ => .boolean false) (scanWord ['a', 'l', 's', 'e'] cs)
  | '"' => given (fun (s, _) => .string s) (readString cs)
  | '-' => given (fun (n, _) => .number n) (readNumber true cs)
  | '[' => .wrongType .sequence wanted
  | '\x7b' => .wrongType .map wanted
  | c =>
    if c.isDigit then given (fun (n, _) => .number n) (readNumber false (c :: cs))
    else .text .malformed

/-- Reads a string. -/
def readText : Reader ε String := fun cs => do
  let (c, rest) ← peek cs
  if c == '"' then ofScan (readString rest) else .error (mismatch "a string" c rest)

/-- Reads a string or `null`. -/
def readText? : Reader ε (Option String) := fun cs => do
  let (c, rest) ← peek cs
  if c == 'n' then pure (none, ← ofScan (scanWord ['u', 'l', 'l'] rest))
  else
    let (s, rest) ← readText cs
    pure (some s, rest)

/-- Passes over any value. -/
def skipAny : Reader ε Unit := fun cs => do pure ((), ← ofScan (skipValue cs))

/-- Comes to the next item of a sequence, if there is one. Without one the closing bracket is what
is left. -/
def nextItem (first : Bool) : Reader ε Bool := fun cs => do
  let (c, rest) ← peek cs
  if c == ']' then pure (false, c :: rest)
  else if first then pure (true, c :: rest)
  else if c == ',' then
    let (c, rest) ← peek rest
    if c == ']' then .error (.text .malformed) else pure (true, c :: rest)
  else .error (.text .malformed)

/-- Comes to the next key of a map, behind its first quote, if there is one. Without one the closing
brace is what is left. -/
def nextKey (first : Bool) : Reader ε Bool := fun cs => do
  let (c, rest) ← peek cs
  if c == '\x7d' then pure (false, c :: rest)
  else if first then if c == '"' then pure (true, rest) else .error (.text .malformed)
  else if c == ',' then
    let (c, rest) ← peek rest
    if c == '"' then pure (true, rest) else .error (.text .malformed)
  else .error (.text .malformed)

/-- Passes over one character, which has to be there. -/
def closing (bracket : Char) : Reader ε Unit := fun cs => do
  let (c, rest) ← peek cs
  if c == bracket then pure ((), rest) else .error (.text .malformed)

/-- Reads the items of a sequence up to the closing bracket, at most `bound` of them. -/
def readItemsWithin (item : Reader ε α) : Nat → Bool → Reader ε (List α)
  | 0, _, _ => .error (.text .cutOff)
  | bound + 1, first, cs => do
    let (more, rest) ← nextItem first cs
    if more then
      let (a, rest) ← item rest
      let (items, rest) ← readItemsWithin item bound false rest
      pure (a :: items, rest)
    else pure ([], rest)

/-- Reads a sequence. -/
def readSequence (item : Reader ε α) : Reader ε (List α) := fun cs => do
  let (c, rest) ← peek cs
  if c == '[' then
    let (items, rest) ← readItemsWithin item (rest.length + 1) true rest
    pure (items, ← (do pure (← closing ']' rest).2))
  else .error (mismatch "a sequence" c rest)

/-- Reads the entries of a map of strings up to the closing brace, at most `bound` of them. -/
def readEntriesWithin : Nat → Bool → Reader ε (List (String × String))
  | 0, _, _ => .error (.text .cutOff)
  | bound + 1, first, cs => do
    let (more, rest) ← nextKey first cs
    if more then
      let (key, rest) ← ofScan (readString rest)
      let (_, rest) ← closing ':' rest
      let (value, rest) ← readText rest
      let (entries, rest) ← readEntriesWithin bound false rest
      pure ((key, value) :: entries, rest)
    else pure ([], rest)

/-- Reads a map of strings, all its entries in the order of the text. -/
def readMap : Reader ε (List (String × String)) := fun cs => do
  let (c, rest) ← peek cs
  if c == '\x7b' then
    let (entries, rest) ← readEntriesWithin (rest.length + 1) true rest
    pure (entries, ← (do pure (← closing '\x7d' rest).2))
  else .error (mismatch "a map" c rest)

/-- Reads a whole text. -/
def readAll (reader : Reader ε α) (text : String) : Except (ReadError ε) α := do
  let (a, rest) ← reader text.toList
  if (skipBlanks rest).isEmpty then pure a else .error (.text .malformed)

end ControlFlow.Json
