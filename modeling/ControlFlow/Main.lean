import ControlFlow.CommandLine.Program

/-! The program on the real system. -/
namespace ControlFlow.CommandLine

/-- The error of the system as the library knows it. -/
def ofSystem : IO.Error → SystemError
  | .noFileOrDirectory .. => .notFound
  | .alreadyExists .. => .alreadyExists
  | .inappropriateType _ code _ => if code == 21 then .isDirectory else .notDirectory
  | error => .other (toString error)

/-- Carries out an action of the system and keeps its error. -/
def attempt (action : IO α) : IO (Except SystemError α) := do
  match ← action.toBaseIO with
  | .ok a => pure (.ok a)
  | .error error => pure (.error (ofSystem error))

/-- The real system. -/
def Host.real : Host IO where
  readFile path := do
    match ← attempt (IO.FS.readBinFile path) with
    | .error error => pure (.error error)
    | .ok bytes =>
      pure <| match String.fromUTF8? bytes with
        | some text => .ok text
        | none => .error .notText
  writeFile path content := attempt (IO.FS.writeFile path content)
  createDirectory path := attempt (IO.FS.createDir path)
  isDirectory path := do
    match ← attempt (IO.FS.realPath path) with
    | .ok place => place.isDir
    | .error _ => pure false
  log text := do
    let stderr ← IO.getStderr
    stderr.putStr text

end ControlFlow.CommandLine

def main (arguments : List String) : IO UInt32 := do
  let exit ← ControlFlow.CommandLine.runProgram ControlFlow.CommandLine.Host.real arguments
  IO.print exit.output
  IO.eprint exit.errorOutput
  pure exit.code.toUInt32
