import ControlFlow.CommandLine.Arguments
import ControlFlow.CommandLine.Host
import ControlFlow.CommandLine.Path
import ControlFlow.CommandLine.Report
import ControlFlow.Dot.Document
import ControlFlow.Dot.Write

/-! Runs of the program on any system. Nothing is printed before all is done: an error leaves the
output empty, but not the files written until then. -/
namespace ControlFlow.CommandLine

/-- A run that can fail with the text of an error. -/
abbrev Run (m : Type → Type) (α : Type) := ExceptT String m α

variable {m : Type → Type} [Monad m]

/-- Shows a line of the log if lines of its severity are shown. -/
def Host.logLine (host : Host m) (verbose : Bool) (severity : Severity) (text : String) : m Unit :=
  if severity.isShown verbose then host.log (logText severity text) else pure ()

/-- Says what a run was about when it failed. -/
def about (context : String) (message : String) : String := context ++ ": " ++ message

/-- Carries out a request to the system. -/
def request (context : String) (action : m (Except SystemError α)) : Run m α :=
  ExceptT.mk do
    pure ((← action).mapError fun error => about context error.message)

/-- Reads the graph in a file. A graph without a name is named after the file. -/
def loadGraph (host : Host m) (path : String) : Run m FlowGraph := do
  let text ← request ("failed to read " ++ path) (host.readFile path)
  match Dot.read text with
  | .error error => throw (about ("failed to parse " ++ path) error.message)
  | .ok g => pure (if g.name.isEmpty then g.setName (stem path) else g)

/-- Writes a graph to a file. -/
def saveGraph (host : Host m) (path : String) (g : FlowGraph) : Run m Unit :=
  request ("failed to write " ++ path) (host.writeFile path (Dot.write g))

/-- How far a reduction that writes its steps has come. -/
structure StepLog where
  step : Nat
  /-- Why a step could not be written. -/
  failure : Option String

/-- Logs each merge and, if asked for, writes the graph after it. A step that cannot be written
ends the run. -/
def stepObserver (host : Host m) (verbose : Bool) (request : StructureRequest)
    (path graph : String) : Hammock.Observer (StateT StepLog m) where
  before g region := do
    host.logLine verbose .debug (graph ++ ": merging " ++ region.kind.name ++ " at '" ++
      region.entry ++ "' (" ++ toString g.size ++ " nodes)")
    pure true
  after g _ := do
    modify fun log => { log with step := log.step + 1 }
    if request.steps then
      let output := outputPath path request.outputDir
        ("step" ++ toString (← get).step ++ ".dot")
      match ← (saveGraph host output g).run with
      | .ok () =>
        host.logLine verbose .debug (graph ++ ": wrote " ++ output)
        pure true
      | .error message =>
        modify fun log => { log with failure := some message }
        pure false
    else pure true

/-- Structures one graph and logs what is done to it. -/
def structureOne (host : Host m) (verbose : Bool) (request : StructureRequest) (path : String)
    (g : FlowGraph) : Run m (Analysis × FlowGraph) := do
  let context := about ("failed to structure " ++ path)
  match request.method with
  | .interval =>
    match Strategy.interval.analyze g with
    | .ok result => pure result
    | .error error => throw (context error.message)
  | .hammock =>
    let observer := stepObserver host verbose request path g.name
    let (outcome, log) ← (Hammock.reduceObserved observer g).run ⟨0, none⟩
    match outcome, log.failure with
    | .error error, _ => throw (context error.message)
    | .ok _, some message => throw (context message)
    | .ok result, none => pure result

/-- Warns of what is left of a graph, writes the graph if asked for, and gives the report. -/
def finish (host : Host m) (verbose : Bool) (request : StructureRequest) (path : String)
    (analysis : Analysis) (g : FlowGraph) : Run m StructureReport := do
  if let some remainder := analysis.remainder then
    host.logLine verbose .warning (displayName path ++ ": structuring incomplete, " ++
      toString remainder.size ++ " nodes left")
  if request.dot then
    let g := if request.method == .interval then g.exportAnnotations else g
    let output := outputPath path request.outputDir "structured.dot"
    saveGraph host output g
    host.logLine verbose .info ("wrote " ++ output)
  pure { file := displayName path, graph := g.name, method := request.method, analysis }

/-- Structures one graph without a log of its merges. -/
def structureQuietly (request : StructureRequest) (path : String) (g : FlowGraph) :
    Run m (Analysis × FlowGraph) :=
  match request.method.analyze g with
  | .ok result => pure result
  | .error error => throw (about ("failed to structure " ++ path) error.message)

/-- Structures the graph of one of the files and writes what is asked for. Merges are logged only where
the files are taken one by one: for a single file, or where steps are written. -/
def structureFile (host : Host m) (verbose : Bool) (request : StructureRequest) (path : String)
    (g : FlowGraph) : Run m StructureReport := do
  let (analysis, g) ← if request.paths.length == 1 || request.steps
    then structureOne host verbose request path g
    else structureQuietly request path g
  finish host verbose request path analysis g

/-- Structures the graphs of all files, one after the other. -/
def structureFiles (host : Host m) (verbose : Bool) (request : StructureRequest)
    (graphs : List FlowGraph) : Run m (List StructureReport) :=
  (request.paths.zip graphs).mapM fun (path, g) => structureFile host verbose request path g

/-- Loads the graphs of all files and structures them. -/
def runStructure (host : Host m) (verbose : Bool) (request : StructureRequest) :
    Run m (List StructureReport) := do
  if request.steps && request.method != .hammock then
    throw "--steps requires --method hammock"
  if let some directory := request.outputDir then
    CommandLine.request ("failed to create " ++ directory) (host.createDirectories directory)
  let graphs ← request.paths.mapM (loadGraph host)
  structureFiles host verbose request graphs

/-- Decomposes the graph of a file. -/
def runIntervals (host : Host m) (path : String) : Run m SequenceReport := do
  let g ← loadGraph host path
  match g.derivedSequence with
  | .ok levels => pure (.ofLevels (displayName path) levels)
  | .error error => throw (about ("failed to decompose " ++ path) error.message)

/-- Carries out a command and gives what is to be printed. -/
def Invocation.run (host : Host m) (invocation : Invocation) : Run m String := do
  match invocation.command with
  | .structure request =>
    let reports ← runStructure host invocation.verbose request
    pure (if invocation.json then (StructureReport.listValue reports).text ++ "\n"
      else StructureReport.listText reports)
  | .intervals path =>
    let report ← runIntervals host path
    pure (if invocation.json then report.toValue.text ++ "\n" else report.text)

/-- How a run ends. -/
inductive Exit where
  | printed (output : String)
  | failed (message : String)
  | misused (error : UsageError)
deriving DecidableEq, Repr

def Exit.code : Exit → Nat
  | printed _ => 0
  | failed _ => 1
  | misused _ => 2

/-- What is printed on the standard output. -/
def Exit.output : Exit → String
  | printed output => output
  | _ => ""

/-- What is printed on the error output behind the log. -/
def Exit.errorOutput : Exit → String
  | printed _ => ""
  | failed message => "restructure: " ++ message ++ "\n"
  | misused error => "restructure: " ++ error.message ++ "\n"

/-- Runs the program with some arguments. -/
def runProgram (host : Host m) (arguments : List String) : m Exit := do
  match Invocation.ofArguments arguments with
  | .error error => pure (.misused error)
  | .ok invocation =>
    match ← (invocation.run host).run with
    | .ok output => pure (.printed output)
    | .error message => pure (.failed message)

end ControlFlow.CommandLine
