import ControlFlow.Dot.Lexeme

/-! The statements of a DOT text. Reading stops at the first fault; the statements before it are
kept, because what they mean can be at fault as well, and then that is the earlier one. -/
namespace ControlFlow.Dot

/-- What a statement gives default attributes to. -/
inductive Subject where
  | graph
  | node
  | edge
deriving DecidableEq, Repr

def Subject.keyword : Subject → String
  | graph => "graph"
  | node => "node"
  | edge => "edge"

/-- The entries of attribute lists in the order in which they are written. -/
abbrev Entries := List (String × String)

/-- A statement of a graph. -/
inductive Statement where
  /-- Attributes of the graph, or of all nodes or edges that come later. -/
  | defaults (subject : Subject) (entries : Entries)
  /-- One attribute of the graph. -/
  | assign (key value : String)
  /-- A node and attributes of it. -/
  | node (label : String) (entries : Entries)
  /-- A chain of edges, and attributes of each. -/
  | chain (line : Nat) (first : String) (others : List String) (entries : Entries)
deriving DecidableEq, Repr

/-- The line at which reading stands: that of the next lexeme, or after the last one `final`. -/
def lineAt (final : Nat) : List Lexeme → Nat
  | [] => final
  | lexeme :: _ => lexeme.line

/-- The token at which reading stands. -/
def tokenAt : List Lexeme → Option Token
  | [] => none
  | lexeme :: _ => some lexeme.token

/-- Joins quoted ids with a plus between them. -/
def joinQuoted (line : Nat) (text : String) : List Lexeme → Except ReadError (String × List Lexeme)
  | ⟨.plus, _⟩ :: ⟨.id more true, _⟩ :: rest => joinQuoted line (text ++ more) rest
  | ⟨.plus, _⟩ :: _ => .error (.fault line .badJoin)
  | rest => .ok (text, rest)

/-- Reads an id. -/
def readId (final : Nat) : List Lexeme → Except ReadError (String × List Lexeme)
  | ⟨.id text true, line⟩ :: rest => joinQuoted line text rest
  | ⟨.id text false, _⟩ :: rest => .ok (text, rest)
  | ⟨token, line⟩ :: _ => .error (.fault line (.expectedId (some token)))
  | [] => .error (.fault final (.expectedId none))

/-- Passes over one token, which has to be there. -/
def expect (final : Nat) (token : Token) (lexemes : List Lexeme) :
    Except ReadError (List Lexeme) :=
  match lexemes with
  | ⟨found, line⟩ :: rest =>
    if found == token then .ok rest else .error (.fault line (.expected token (some found)))
  | [] => .error (.fault final (.expected token none))

/-- Passes over a comma or a semicolon, if one is there. -/
def skipSeparator : List Lexeme → List Lexeme
  | ⟨.comma, _⟩ :: rest | ⟨.semicolon, _⟩ :: rest => rest
  | rest => rest

/-- Reads `key = value` with a separator behind it, if there is one. -/
def readEntry (final : Nat) (lexemes : List Lexeme) :
    Except ReadError ((String × String) × List Lexeme) := do
  let (key, rest) ← readId final lexemes
  match rest with
  | ⟨.equals, _⟩ :: rest =>
    let (value, rest) ← readId final rest
    pure ((key, value), skipSeparator rest)
  | rest => .error (.fault (lineAt final rest) (.expectedEquals key))

/-- Reads any number of attribute lists, inside one of them or between two. Each step takes a
lexeme at least, so `bound` need not be above their number. -/
def readListsWithin (final : Nat) :
    Nat → Bool → List Lexeme → Except ReadError (Entries × List Lexeme)
  | 0, _, rest => .ok ([], rest)
  | bound + 1, false, ⟨.leftBracket, _⟩ :: rest => readListsWithin final bound true rest
  | _ + 1, false, rest => .ok ([], rest)
  | bound + 1, true, ⟨.rightBracket, _⟩ :: rest => readListsWithin final bound false rest
  | bound + 1, true, rest => do
    let (entry, rest) ← readEntry final rest
    let (entries, rest) ← readListsWithin final bound true rest
    pure (entry :: entries, rest)

/-- Reads any number of attribute lists. -/
def readLists (final : Nat) (lexemes : List Lexeme) : Except ReadError (Entries × List Lexeme) :=
  readListsWithin final (lexemes.length + 1) false lexemes

/-- Whether a subgraph begins with this token. -/
def Token.startsSubgraph (token : Token) : Bool := token == .leftBrace || token.isWord "subgraph"

/-- Reads the ids that follow the arrows of a chain. -/
def readChainWithin (final : Nat) : Nat → List Lexeme → Except ReadError (List String × List Lexeme)
  | bound + 1, ⟨.arrow, _⟩ :: rest =>
    if (tokenAt rest).any Token.startsSubgraph then .error (.unsupported .subgraph)
    else do
      let (label, rest) ← readId final rest
      let (labels, rest) ← readChainWithin final bound rest
      pure (label :: labels, rest)
  | _, rest => .ok ([], rest)

/-- What a word at the head of a statement gives attributes to. -/
def Token.subject? (token : Token) : Option Subject :=
  [Subject.graph, .node, .edge].find? fun subject => token.isWord subject.keyword

/-- Reads what follows the id at the head of a statement that began on `line`. -/
def readAfterId (final line : Nat) (first : String) (lexemes : List Lexeme) :
    Except ReadError (Statement × List Lexeme) := do
  match tokenAt lexemes with
  | some .equals =>
    let (value, rest) ← readId final lexemes.tail
    pure (.assign first value, rest)
  | some .colon => .error (.unsupported .nodePort)
  | some .line => .error (.fault line .undirectedEdge)
  | some .arrow =>
    let (others, rest) ← readChainWithin final lexemes.length lexemes
    if tokenAt rest == some .colon then .error (.unsupported .nodePort)
    else
      let (entries, rest) ← readLists final rest
      pure (.chain line first others entries, rest)
  | _ =>
    let (entries, rest) ← readLists final lexemes
    pure (.node first entries, rest)

/-- Reads a statement. A reserved word is no id at its head. -/
def readStatement (final : Nat) (lexemes : List Lexeme) :
    Except ReadError (Statement × List Lexeme) := do
  match lexemes with
  | [] => .error (.fault final .unexpectedEnd)
  | ⟨token, line⟩ :: rest =>
    if token.startsSubgraph then .error (.unsupported .subgraph)
    else match token.subject? with
      | some subject =>
        if tokenAt rest == some .leftBracket then
          let (entries, rest) ← readLists final rest
          pure (.defaults subject entries, rest)
        else .error (.fault line (.expectedList subject.keyword))
      | none =>
        match token with
        | .id text false =>
          if isKeyword text then .error (.fault line (.unexpectedKeyword text))
          else readAfterId final line text rest
        | _ =>
          let (first, rest) ← readId final lexemes
          readAfterId final line first rest

/-- What reading has come to: the statements in their order, and the fault that ended it. -/
structure Body where
  statements : List Statement
  fault : Option ReadError
deriving DecidableEq, Repr

/-- Reads the statements up to the closing brace, behind which nothing may follow. -/
def readBodyWithin (final : Nat) : Nat → List Lexeme → Body
  | 0, _ => ⟨[], none⟩
  | bound + 1, lexemes =>
    match lexemes with
    | [] => ⟨[], some (.fault final .missingBrace)⟩
    | [⟨.rightBrace, _⟩] => ⟨[], none⟩
    | ⟨.rightBrace, _⟩ :: ⟨token, line⟩ :: _ => ⟨[], some (.fault line (.afterGraph token))⟩
    | ⟨.semicolon, _⟩ :: rest => readBodyWithin final bound rest
    | lexemes =>
      match readStatement final lexemes with
      | .error fault => ⟨[], some fault⟩
      | .ok (statement, rest) =>
        let body := readBodyWithin final bound rest
        { body with statements := statement :: body.statements }

/-- A whole text. -/
structure Outline where
  strict : Bool
  name : String
  body : Body
deriving DecidableEq, Repr

/-- The words before the opening brace: whether edges may be repeated, and the name. -/
def readHeader (final : Nat) (lexemes : List Lexeme) :
    Except ReadError (Bool × String × List Lexeme) := do
  let strict := (tokenAt lexemes).any (Token.isWord "strict")
  let lexemes := if strict then lexemes.tail else lexemes
  match tokenAt lexemes with
  | some token =>
    if token.isWord "digraph" then
      match lexemes.tail with
      | ⟨.id text quoted, line⟩ :: rest =>
        let (name, rest) ← readId final (⟨.id text quoted, line⟩ :: rest)
        pure (strict, name, ← expect final .leftBrace rest)
      | rest => pure (strict, "", ← expect final .leftBrace rest)
    else if token.isWord "graph" then .error (.unsupported .undirectedGraph)
    else .error (.fault (lineAt final lexemes) .expectedDigraph)
  | none => .error (.fault final .expectedDigraph)

/-- Reads the lexemes of a text. -/
def Outline.ofLexemes (lexemes : List Lexeme) : Except ReadError Outline := do
  let final := (lexemes.getLast?.map Lexeme.line).getD 1
  let (strict, name, rest) ← readHeader final lexemes
  pure { strict, name, body := readBodyWithin final (rest.length + 1) rest }

end ControlFlow.Dot
