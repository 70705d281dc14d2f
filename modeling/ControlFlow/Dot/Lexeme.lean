import ControlFlow.Dot.Id
import ControlFlow.Graph.Error
import ControlFlow.Text.Blank

/-! The lexemes of a DOT text. A text is cut into lexemes as a whole before it is read further, so
a fault inside a lexeme is reported before any fault in their order. -/
namespace ControlFlow.Dot

/-- The words of the language. -/
inductive Token where
  | id (text : String) (quoted : Bool)
  | leftBrace
  | rightBrace
  | leftBracket
  | rightBracket
  | equals
  | semicolon
  | comma
  | colon
  | plus
  | arrow
  | line
deriving DecidableEq, Repr

namespace Token

/-- The form of a token in an error text. -/
def shown : Token → String
  | id text _ => "'" ++ text ++ "'"
  | leftBrace => "'\x7b'"
  | rightBrace => "'\x7d'"
  | leftBracket => "'['"
  | rightBracket => "']'"
  | equals => "'='"
  | semicolon => "';'"
  | comma => "','"
  | colon => "':'"
  | plus => "'+'"
  | arrow => "'->'"
  | line => "'--'"

/-- Whether a token is a reserved word. A quoted id never is. -/
def isWord (word : String) : Token → Bool
  | id text false => lowerAscii text == word
  | _ => false

/-- The tokens of one character. -/
def ofChar? : Char → Option Token
  | '\x7b' => some leftBrace
  | '\x7d' => some rightBrace
  | '[' => some leftBracket
  | ']' => some rightBracket
  | '=' => some equals
  | ';' => some semicolon
  | ',' => some comma
  | ':' => some colon
  | '+' => some plus
  | _ => none

end Token

/-- A token and the line on which it begins. -/
structure Lexeme where
  token : Token
  line : Nat
deriving DecidableEq, Repr

/-- What a text can break the rules of the language by. -/
inductive Fault where
  | straySlash
  | unterminatedComment
  | strayDash
  | malformedNumeral (text : String)
  | unterminatedString
  | unexpectedCharacter (c : Char)
  | expectedDigraph
  | expected (wanted : Token) (found : Option Token)
  | expectedId (found : Option Token)
  | badJoin
  | missingBrace
  | unexpectedEnd
  | afterGraph (found : Token)
  | expectedList (keyword : String)
  | unexpectedKeyword (text : String)
  | undirectedEdge
  | expectedEquals (key : String)
  | parallelEdge (source target : String)
deriving DecidableEq, Repr

/-- The form of what was found in place of something else. -/
def foundText : Option Token → String
  | some token => token.shown
  | none => "end of input"

def Fault.detail : Fault → String
  | straySlash => "stray '/'"
  | unterminatedComment => "unterminated comment"
  | strayDash => "stray '-'"
  | malformedNumeral text => "malformed numeral '" ++ text ++ "'"
  | unterminatedString => "unterminated string"
  | unexpectedCharacter c => "unexpected character '" ++ c.toString ++ "'"
  | expectedDigraph => "expected 'digraph'"
  | expected wanted found => "expected " ++ wanted.shown ++ ", found " ++ foundText found
  | expectedId found => "expected an id, found " ++ foundText found
  | badJoin => "'+' must join two quoted strings"
  | missingBrace => "missing '\x7d'"
  | unexpectedEnd => "unexpected end of input"
  | afterGraph found => "unexpected " ++ found.shown ++ " after the graph"
  | expectedList keyword => "expected '[' after '" ++ keyword ++ "'"
  | unexpectedKeyword text => "unexpected keyword '" ++ text ++ "'"
  | undirectedEdge => "undirected edge '--' in a digraph"
  | expectedEquals key => "expected '=' after '" ++ key ++ "'"
  | parallelEdge source target => "parallel edge '" ++ source ++ "' -> '" ++ target ++ "'"

/-- Parts of the DOT language that flow graphs have no use for. -/
inductive Construct where
  | htmlString
  | undirectedGraph
  | subgraph
  | nodePort
deriving DecidableEq, Repr

def Construct.name : Construct → String
  | htmlString => "DOT HTML strings"
  | undirectedGraph => "undirected DOT graphs"
  | subgraph => "DOT subgraphs"
  | nodePort => "DOT ports"

/-- Why a text is not read as a flow graph. -/
inductive ReadError where
  | fault (line : Nat) (cause : Fault)
  | unsupported (construct : Construct)
  | graph (cause : GraphError)
deriving DecidableEq, Repr

def ReadError.message : ReadError → String
  | fault line cause => "DOT syntax error at line " ++ toString line ++ ": " ++ cause.detail
  | unsupported construct => "Not implemented - " ++ construct.name
  | graph cause => cause.message

/-- The number of the line after a character. -/
def lineAfter (line : Nat) (c : Char) : Nat := if c == '\n' then line + 1 else line

/-- Where a scan of what separates tokens stands: between comments, inside a comment that ends
with its line, or inside one that ends with a star and a slash. -/
inductive Gap where
  | blank
  | lineComment
  | blockComment (start : Nat) (afterStar : Bool)
deriving DecidableEq, Repr

/-- Passes over blanks and comments. Gives the line that it has come to and what is left. -/
def skipGap : Gap → Nat → List Char → Except ReadError (Nat × List Char)
  | .blank, line, '/' :: '/' :: cs => skipGap .lineComment line cs
  | .blank, line, '/' :: '*' :: cs => skipGap (.blockComment line false) line cs
  | .blank, line, '/' :: _ => .error (.fault line .straySlash)
  | .blank, line, c :: cs =>
    if Text.isBlank c then skipGap .blank (lineAfter line c) cs
    else if c == '#' then skipGap .lineComment line cs
    else .ok (line, c :: cs)
  | .lineComment, line, c :: cs =>
    if c == '\n' then skipGap .blank (line + 1) cs else skipGap .lineComment line cs
  | .blockComment start afterStar, line, c :: cs =>
    if afterStar && c == '/' then skipGap .blank line cs
    else skipGap (.blockComment start (c == '*')) (lineAfter line c) cs
  | .blockComment start _, _, [] => .error (.fault start .unterminatedComment)
  | _, line, [] => .ok (line, [])

/-- The text between two quotes as it stands there, the line after it and what is left. A
backslash keeps the next character from ending the text; before a line's end both vanish. -/
def scanQuoted (line : Nat) : List Char → Option (List Char × Nat × List Char)
  | '"' :: cs => some ([], line, cs)
  | '\\' :: '\n' :: cs => scanQuoted (line + 1) cs
  | '\\' :: c :: cs => (scanQuoted line cs).map fun (raw, rest) => ('\\' :: c :: raw, rest)
  | '\\' :: [] => none
  | c :: cs => (scanQuoted (lineAfter line c) cs).map fun (raw, rest) => (c :: raw, rest)
  | [] => none

/-- The longest run of digits with at most one point in it, and what is left. -/
def scanNumeral (cs : List Char) : List Char × List Char :=
  let whole := cs.takeWhile Char.isDigit
  match cs.dropWhile Char.isDigit with
  | '.' :: rest => (whole ++ '.' :: rest.takeWhile Char.isDigit, rest.dropWhile Char.isDigit)
  | rest => (whole, rest)

/-- The numeral that begins a text, after a sign that has been read. It has at least one digit,
and no letter follows it. -/
def numeral (line : Nat) (sign : List Char) (cs : List Char) :
    Except ReadError (Token × Nat × List Char) :=
  let (digits, rest) := scanNumeral cs
  let text := String.ofList (sign ++ digits)
  if !digits.any Char.isDigit then .error (.fault line (.malformedNumeral text))
  else match rest with
    | c :: _ =>
      if c.isAlpha || c == '_' then .error (.fault line (.malformedNumeral (text.push c)))
      else .ok (.id text false, line, rest)
    | [] => .ok (.id text false, line, rest)

/-- The token that begins a text without a gap before it, the line after it and what is left. -/
def nextToken (line : Nat) : List Char → Except ReadError (Token × Nat × List Char)
  | [] => .error (.fault line .unexpectedEnd)
  | '"' :: cs =>
    match scanQuoted line cs with
    | some (raw, after, rest) => .ok (.id (String.ofList (unescapeChars raw)) true, after, rest)
    | none => .error (.fault line .unterminatedString)
  | '<' :: _ => .error (.unsupported .htmlString)
  | '-' :: '>' :: cs => .ok (.arrow, line, cs)
  | '-' :: '-' :: cs => .ok (.line, line, cs)
  | '-' :: c :: cs =>
    if c.isDigit || c == '.' then numeral line ['-'] (c :: cs)
    else .error (.fault line .strayDash)
  | '-' :: [] => .error (.fault line .strayDash)
  | c :: cs =>
    match Token.ofChar? c with
    | some token => .ok (token, line, cs)
    | none =>
      if c.isDigit || c == '.' then numeral line [] (c :: cs)
      else if isWordStart c then
        .ok (.id (String.ofList (c :: cs.takeWhile isWordChar)) false, line,
          cs.dropWhile isWordChar)
      else .error (.fault line (.unexpectedCharacter c))

/-- The lexemes of a text, for as many of them as `bound` allows. Each takes a character at least,
so the length of the text is bound enough. -/
def lexemesWithin : Nat → Nat → List Char → Except ReadError (List Lexeme)
  | 0, _, _ => .ok []
  | bound + 1, line, cs => do
    match ← skipGap .blank line cs with
    | (_, []) => .ok []
    | (start, cs) =>
      let (token, after, rest) ← nextToken start cs
      pure (⟨token, start⟩ :: (← lexemesWithin bound after rest))

/-- The lexemes of a text. -/
def lexemes (text : String) : Except ReadError (List Lexeme) :=
  lexemesWithin (text.toList.length + 1) 1 text.toList

end ControlFlow.Dot
