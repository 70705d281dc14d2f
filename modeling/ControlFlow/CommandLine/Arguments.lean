import ControlFlow.Strategy

/-! The arguments of a run: a command, the options before and after it, and the files that it is
to work on. -/
namespace ControlFlow.CommandLine

/-- The options of all commands. -/
inductive Flag where
  | json
  | verbose
  | method
  | outputDir
  | dot
  | steps
deriving DecidableEq, Repr

namespace Flag

def longName : Flag → String
  | json => "json"
  | verbose => "verbose"
  | method => "method"
  | outputDir => "output-dir"
  | dot => "dot"
  | steps => "steps"

def shortName? : Flag → Option Char
  | verbose => some 'v'
  | method => some 'm'
  | outputDir => some 'o'
  | _ => none

def takesValue : Flag → Bool
  | method | outputDir => true
  | _ => false

/-- The options that may stand anywhere. -/
def everywhere : List Flag := [json, verbose]

/-- The options of the command that structures graphs. -/
def ofStructure : List Flag := [json, verbose, method, outputDir, dot, steps]

end Flag

/-- Why arguments make no run. -/
inductive UsageError where
  | noCommand
  | unknownCommand (name : String)
  | unknownOption (text : String)
  | missingValue (flag : Flag)
  | unexpectedValue (flag : Flag)
  | repeated (flag : Flag)
  | unknownMethod (name : String)
  | emptyPath
  | missingFile
  | surplusFile (path : String)
deriving DecidableEq, Repr

def UsageError.message : UsageError → String
  | noCommand => "a command is required: structure or intervals"
  | unknownCommand name => "unknown command '" ++ name ++ "'"
  | unknownOption text => "unknown option '" ++ text ++ "'"
  | missingValue flag => "option '--" ++ flag.longName ++ "' requires a value"
  | unexpectedValue flag => "option '--" ++ flag.longName ++ "' takes no value"
  | repeated flag => "option '--" ++ flag.longName ++ "' is given twice"
  | unknownMethod name => "unknown method '" ++ name ++ "'"
  | emptyPath => "a path is empty"
  | missingFile => "a file is required"
  | surplusFile path => "unexpected file '" ++ path ++ "'"

/-- Options with their values, empty for options that take none. -/
abbrev Given := List (Flag × String)

/-- Whether an argument can be the value of an option before it: it is no option itself. -/
def isValue (argument : String) : Bool :=
  argument == "-" || argument.toList.head? != some '-'

/-- Takes the value of an option: what is attached to it, or else the next argument. -/
def takeValue (flag : Flag) (attached : Option String) (rest : List String) :
    Except UsageError (Given × List String) :=
  match attached, rest with
  | some value, rest => .ok ([(flag, value)], rest)
  | none, value :: rest =>
    if isValue value then .ok ([(flag, value)], rest) else .error (.missingValue flag)
  | none, [] => .error (.missingValue flag)

/-- Reads an option by its long name. A value is attached by an equals sign. -/
def readLong (allowed : List Flag) (text : List Char) (rest : List String) :
    Except UsageError (Given × List String) :=
  let name := String.ofList (text.takeWhile (· != '='))
  let attached := match text.dropWhile (· != '=') with
    | [] => none
    | _ :: value => some (String.ofList value)
  match allowed.find? (·.longName == name) with
  | none => .error (.unknownOption ("--" ++ name))
  | some flag =>
    if flag.takesValue then takeValue flag attached rest
    else if attached.isSome then .error (.unexpectedValue flag)
    else .ok ([(flag, "")], rest)

/-- Reads options by their letters. The first one that takes a value takes all that follows, with
or without an equals sign before it. -/
def readShort (allowed : List Flag) : List Char → List String →
    Except UsageError (Given × List String)
  | [], rest => .ok ([], rest)
  | letter :: more, rest =>
    match allowed.find? (·.shortName? == some letter) with
    | none => .error (.unknownOption ("-" ++ letter.toString))
    | some flag =>
      if flag.takesValue then
        takeValue flag (match more with
          | [] => none
          | '=' :: value => some (String.ofList value)
          | value => some (String.ofList value)) rest
      else do
        let (given, rest) ← readShort allowed more rest
        pure ((flag, "") :: given, rest)

/-- What an argument is: an option to be read, the end of all options, or an operand. -/
inductive Argument where
  | long (text : List Char)
  | short (letters : List Char)
  | endOfOptions
  | operand (text : String)
deriving DecidableEq, Repr

def Argument.ofText (text : String) : Argument :=
  match text.toList with
  | ['-', '-'] => .endOfOptions
  | '-' :: '-' :: rest => .long rest
  | '-' :: c :: rest => .short (c :: rest)
  | _ => .operand text

/-- Reads options up to the first operand and gives it with all that follows, for at most `bound`
arguments. -/
def readLeading (allowed : List Flag) : Nat → List String →
    Except UsageError (Given × Option String × List String)
  | bound + 1, text :: rest =>
    match Argument.ofText text with
    | .long name => do
      let (given, rest) ← readLong allowed name rest
      let (more, command, rest) ← readLeading allowed bound rest
      pure (given ++ more, command, rest)
    | .short letters => do
      let (given, rest) ← readShort allowed letters rest
      let (more, command, rest) ← readLeading allowed bound rest
      pure (given ++ more, command, rest)
    | .endOfOptions => .error (.unknownOption "--")
    | .operand text => .ok ([], some text, rest)
  | _, rest => .ok ([], none, rest)

/-- Reads options and operands in any order, for at most `bound` arguments. -/
def readMixed (allowed : List Flag) : Nat → List String → Except UsageError (Given × List String)
  | bound + 1, text :: rest =>
    match Argument.ofText text with
    | .long name => do
      let (given, rest) ← readLong allowed name rest
      let (more, operands) ← readMixed allowed bound rest
      pure (given ++ more, operands)
    | .short letters => do
      let (given, rest) ← readShort allowed letters rest
      let (more, operands) ← readMixed allowed bound rest
      pure (given ++ more, operands)
    | .endOfOptions => .ok ([], rest)
    | .operand text => do
      let (given, operands) ← readMixed allowed bound rest
      pure (given, text :: operands)
  | _, _ => .ok ([], [])

/-- Accepts options none of which is given twice. -/
def checkOnce : Given → Except UsageError Unit
  | [] => .ok ()
  | (flag, _) :: rest =>
    if rest.any (·.1 == flag) then .error (.repeated flag) else checkOnce rest

/-- Accepts paths none of which is empty. -/
def checkPaths (paths : List String) : Except UsageError Unit :=
  if paths.contains "" then .error .emptyPath else .ok ()

/-- What the command that structures graphs is asked to do. -/
structure StructureRequest where
  paths : List String
  method : Strategy
  outputDir : Option String
  /-- Whether the structured graphs are written. -/
  dot : Bool
  /-- Whether the graph after each merge is written. -/
  steps : Bool
deriving DecidableEq, Repr

/-- A command and what it is to work on. -/
inductive Command where
  | structure (request : StructureRequest)
  | intervals (path : String)
deriving DecidableEq, Repr

/-- A run of the program. -/
structure Invocation where
  json : Bool
  verbose : Bool
  command : Command
deriving DecidableEq, Repr

/-- The strategy of a name. -/
def readMethod (name : String) : Except UsageError Strategy :=
  match Strategy.ofName? name with
  | some strategy => .ok strategy
  | none => .error (.unknownMethod name)

/-- Reads the options and files of the command that structures graphs. -/
def readStructure (given : Given) (paths : List String) : Except UsageError Command := do
  let method ← match given.lookup .method with
    | some name => readMethod name
    | none => pure .hammock
  checkPaths (paths ++ (given.lookup .outputDir).toList)
  if paths.isEmpty then .error .missingFile
  else pure (.structure {
    paths, method
    outputDir := given.lookup .outputDir
    dot := (given.lookup .dot).isSome
    steps := (given.lookup .steps).isSome })

/-- Reads the file of the command that shows intervals. -/
def readIntervals (paths : List String) : Except UsageError Command := do
  checkPaths paths
  match paths with
  | [] => .error .missingFile
  | [path] => pure (.intervals path)
  | _ :: path :: _ => .error (.surplusFile path)

/-- Reads the arguments of a run. -/
def Invocation.ofArguments (arguments : List String) : Except UsageError Invocation := do
  let bound := arguments.length
  let (before, command, rest) ← readLeading Flag.everywhere bound arguments
  checkOnce before
  match command with
  | none => .error .noCommand
  | some name =>
    let allowed ← match name with
      | "structure" => pure Flag.ofStructure
      | "intervals" => pure Flag.everywhere
      | _ => .error (.unknownCommand name)
    let (after, operands) ← readMixed allowed bound rest
    checkOnce after
    let command ← if name == "structure" then readStructure after operands
      else readIntervals operands
    let given := before ++ after
    pure { json := (given.lookup .json).isSome, verbose := (given.lookup .verbose).isSome, command }

end ControlFlow.CommandLine
