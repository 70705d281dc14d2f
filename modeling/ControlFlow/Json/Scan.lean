import ControlFlow.Json.Number

/-! The characters of a JSON text: blanks, words, strings, and whole values that are passed over.
A string that is passed over need not stand for any text: its escapes are only looked at for their
form. -/
namespace ControlFlow.Json

/-- The blanks of JSON. -/
def isBlank (c : Char) : Bool := c == ' ' || c == '\n' || c == '\t' || c == '\r'

def skipBlanks (cs : List Char) : List Char := cs.dropWhile isBlank

/-- Passes over the letters of a word, one after the other. -/
def scanWord : List Char → List Char → Except Fault (List Char)
  | [], cs => .ok cs
  | _ :: _, [] => .error .cutOff
  | letter :: word, c :: cs => if c == letter then scanWord word cs else .error .malformed

/-- The value of a digit in base sixteen. -/
def hexValue? (c : Char) : Option Nat :=
  if c.isDigit then some (c.toNat - '0'.toNat)
  else if 'a' ≤ c && c ≤ 'f' then some (c.toNat - 'a'.toNat + 10)
  else if 'A' ≤ c && c ≤ 'F' then some (c.toNat - 'A'.toNat + 10)
  else none

/-- The number of bytes of a text in UTF-8. -/
def byteCount (cs : List Char) : Nat := cs.foldl (fun count c => count + c.utf8Size) 0

/-- Passes over the four digits of an escape. A text of fewer than four bytes is cut off,
whatever it holds. -/
def scanUnit (cs : List Char) : Except Fault (Nat × List Char) :=
  match (cs.take 4).mapM hexValue? with
  | some [a, b, c, d] => .ok (4096 * a + 256 * b + 16 * c + d, cs.drop 4)
  | _ => if byteCount (cs.take 4) < 4 then .error .cutOff else .error .malformed

/-- The characters that are escaped by one letter. -/
def simpleEscape? : Char → Option Char
  | '"' => some '"'
  | '\\' => some '\\'
  | '/' => some '/'
  | 'b' => some '\x08'
  | 'f' => some '\x0c'
  | 'n' => some '\n'
  | 'r' => some '\r'
  | 't' => some '\t'
  | _ => none

/-- Whether a number is one half of a pair of escapes: the first half, or the second. -/
def isLeading (unit : Nat) : Bool := 0xD800 ≤ unit && unit ≤ 0xDBFF

def isTrailing (unit : Nat) : Bool := 0xDC00 ≤ unit && unit ≤ 0xDFFF

/-- Reads the second half of a pair of escapes and gives the character of both. -/
def readTrailing (leading : Nat) : List Char → Except Fault (Char × List Char)
  | [] => .error .cutOff
  | ['\\'] => .error .cutOff
  | '\\' :: 'u' :: cs => do
    let (trailing, rest) ← scanUnit cs
    if isTrailing trailing then
      pure (Char.ofNat ((leading - 0xD800) * 0x400 + (trailing - 0xDC00) + 0x10000), rest)
    else .error .malformed
  | _ => .error .malformed

/-- Reads an escape behind its backslash. -/
def readEscape : List Char → Except Fault (Char × List Char)
  | [] => .error .cutOff
  | 'u' :: cs => do
    let (unit, rest) ← scanUnit cs
    if isTrailing unit then .error .malformed
    else if isLeading unit then readTrailing unit rest
    else pure (Char.ofNat unit, rest)
  | c :: cs =>
    match simpleEscape? c with
    | some char => .ok (char, cs)
    | none => .error .malformed

/-- Reads a string behind its first quote, for at most `bound` characters. -/
def readStringWithin : Nat → List Char → Except Fault (List Char × List Char)
  | _, [] => .error .cutOff
  | 0, _ => .error .cutOff
  | bound + 1, c :: cs =>
    if c == '"' then .ok ([], cs)
    else if c == '\\' then do
      let (char, rest) ← readEscape cs
      let (chars, rest) ← readStringWithin bound rest
      pure (char :: chars, rest)
    else if c.toNat < 0x20 then .error .malformed
    else do
      let (chars, rest) ← readStringWithin bound cs
      pure (c :: chars, rest)

/-- Reads a string behind its first quote. -/
def readString (cs : List Char) : Except Fault (String × List Char) := do
  let (chars, rest) ← readStringWithin cs.length cs
  pure (String.ofList chars, rest)

/-- Passes over an escape behind its backslash. -/
def skipEscape : List Char → Except Fault (List Char)
  | [] => .error .cutOff
  | 'u' :: cs => do pure (← scanUnit cs).2
  | c :: cs => if (simpleEscape? c).isSome then .ok cs else .error .malformed

/-- Passes over a string behind its first quote, for at most `bound` characters. -/
def skipStringWithin : Nat → List Char → Except Fault (List Char)
  | _, [] => .error .cutOff
  | 0, _ => .error .cutOff
  | bound + 1, c :: cs =>
    if c == '"' then .ok cs
    else if c == '\\' then do skipStringWithin bound (← skipEscape cs)
    else if c.toNat < 0x20 then .error .malformed
    else skipStringWithin bound cs

/-- Passes over a string behind its first quote. -/
def skipString (cs : List Char) : Except Fault (List Char) := skipStringWithin cs.length cs

/-- Passes over a number. Its size does not matter, and one that breaks off is malformed. -/
def skipNumber (cs : List Char) : Except Fault (List Char) :=
  match scanNumber false cs with
  | .ok (_, rest) => .ok rest
  | .error _ => .error .malformed

/-- Reads a number, which has to be in range. -/
def readNumber (negative : Bool) (cs : List Char) : Except Fault (Number × List Char) := do
  let (number, rest) ← scanNumber negative cs
  if number.inRange then pure (number, rest) else .error .malformed

/-- The brackets around a place in a text. -/
inductive Bracket where
  | array
  | object
deriving DecidableEq, Repr

/-- What a place in a text admits. -/
inductive Place where
  /-- A value. -/
  | value
  /-- The first entry of the innermost brackets, or their end. -/
  | first
  /-- A comma before another entry, or the end of the innermost brackets. -/
  | next
  /-- The key of a member. -/
  | key
deriving DecidableEq, Repr

/-- What is left of a walk over a value: nothing, or a place and the brackets around it. -/
abbrev Walk := Option (Place × List Bracket)

/-- Where a walk stands after a value. -/
def afterValue (brackets : List Bracket) : Walk :=
  if brackets.isEmpty then none else some (.next, brackets)

/-- Passes over the beginning of a value. -/
def skipStart (brackets : List Bracket) (c : Char) (cs : List Char) :
    Except Fault (Walk × List Char) := do
  let scalar (rest : Except Fault (List Char)) : Except Fault (Walk × List Char) := do
    pure (afterValue brackets, ← rest)
  match c with
  | 'n' => scalar (scanWord ['u', 'l', 'l'] cs)
  | 't' => scalar (scanWord ['r', 'u', 'e'] cs)
  | 'f' => scalar (scanWord ['a', 'l', 's', 'e'] cs)
  | '"' => scalar (skipString cs)
  | '-' => scalar (skipNumber cs)
  | '[' => pure (some (.first, .array :: brackets), cs)
  | '\x7b' => pure (some (.first, .object :: brackets), cs)
  | c => if c.isDigit then scalar (skipNumber (c :: cs)) else .error .malformed

/-- Passes over a key and the colon behind it. -/
def skipKey (brackets : List Bracket) (c : Char) (cs : List Char) :
    Except Fault (Walk × List Char) := do
  if c == '"' then
    match skipBlanks (← skipString cs) with
    | [] => .error .cutOff
    | ':' :: rest => pure (some (.value, brackets), rest)
    | _ => .error .malformed
  else .error .malformed

/-- One step of a walk over a value, which takes a character at least. -/
def skipStep (place : Place) (brackets : List Bracket) (c : Char) (cs : List Char) :
    Except Fault (Walk × List Char) :=
  match place, brackets with
  | .value, _ => skipStart brackets c cs
  | .key, _ => skipKey brackets c cs
  | .first, .array :: outer =>
    if c == ']' then .ok (afterValue outer, cs) else skipStart brackets c cs
  | .next, .array :: outer =>
    if c == ',' then .ok (some (.value, brackets), cs)
    else if c == ']' then .ok (afterValue outer, cs)
    else .error .malformed
  | .first, .object :: outer =>
    if c == '\x7d' then .ok (afterValue outer, cs) else skipKey brackets c cs
  | .next, .object :: outer =>
    if c == ',' then .ok (some (.key, brackets), cs)
    else if c == '\x7d' then .ok (afterValue outer, cs)
    else .error .malformed
  | _, [] => .error .malformed

/-- Walks on for at most `bound` steps. -/
def skipWithin : Nat → Walk → List Char → Except Fault (List Char)
  | _, none, cs => .ok cs
  | 0, some _, _ => .error .cutOff
  | bound + 1, some (place, brackets), cs =>
    match skipBlanks cs with
    | [] => .error .cutOff
    | c :: rest => do
      let (walk, rest) ← skipStep place brackets c rest
      skipWithin bound walk rest

/-- Passes over a value. -/
def skipValue (cs : List Char) : Except Fault (List Char) :=
  skipWithin (cs.length + 1) (some (.value, [])) cs

end ControlFlow.Json
