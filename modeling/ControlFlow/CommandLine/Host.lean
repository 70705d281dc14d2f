import ControlFlow.CommandLine.Path

/-! What a run of the program needs from outside: files, directories and a log. -/
namespace ControlFlow.CommandLine

/-- Why a system refuses a request. -/
inductive SystemError where
  | notFound
  | alreadyExists
  | notDirectory
  | isDirectory
  | notText
  | other (text : String)
deriving DecidableEq, Repr

def SystemError.message : SystemError → String
  | notFound => "No such file or directory (os error 2)"
  | alreadyExists => "File exists (os error 17)"
  | notDirectory => "Not a directory (os error 20)"
  | isDirectory => "Is a directory (os error 21)"
  | notText => "stream did not contain valid UTF-8"
  | other text => text

/-- How much a line of the log matters. -/
inductive Severity where
  | warning
  | info
  | debug
deriving DecidableEq, Repr

def Severity.label : Severity → String
  | warning => "WARN "
  | info => "INFO "
  | debug => "DEBUG"

/-- Whether lines of that severity are shown. -/
def Severity.isShown (verbose : Bool) : Severity → Bool
  | warning => true
  | info | debug => verbose

/-- A line of the log. The lines of a longer text stand below one another, indented. -/
def logText (severity : Severity) (text : String) : String :=
  "[" ++ severity.label ++ "] " ++ "\n    ".intercalate (text.splitOn "\n") ++ "\n"

/-- The system under a run. -/
structure Host (m : Type → Type) where
  readFile : String → m (Except SystemError String)
  writeFile : String → String → m (Except SystemError Unit)
  /-- Makes one directory in a directory that is there. -/
  createDirectory : String → m (Except SystemError Unit)
  isDirectory : String → m Bool
  /-- Shows a line of the log at once. -/
  log : String → m Unit

namespace Host

variable {m : Type → Type} [Monad m]

/-- Makes one directory that may be there already. -/
def ensureDirectory (host : Host m) (path : String) : m (Except SystemError Unit) := do
  match ← host.createDirectory path with
  | .ok () => pure (.ok ())
  | .error error => pure (if ← host.isDirectory path then .ok () else .error error)

/-- Makes a directory and, where one is missing above it, that one first. Each step up takes a part
of the path away, so its length is bound enough. -/
def createWithin (host : Host m) : Nat → String → m (Except SystemError Unit)
  | 0, _ => pure (.ok ())
  | bound + 1, path => do
    if path == "" then pure (.ok ())
    else match ← host.ensureDirectory path with
      | .error .notFound => do
        match ← host.createWithin bound ((parent? path).getD "") with
        | .ok () => host.ensureDirectory path
        | .error error => pure (.error error)
      | result => pure result

/-- Makes a directory and those that it lies in, as far as they are missing. -/
def createDirectories (host : Host m) (path : String) : m (Except SystemError Unit) :=
  host.createWithin (path.length + 1) path

end Host

end ControlFlow.CommandLine
