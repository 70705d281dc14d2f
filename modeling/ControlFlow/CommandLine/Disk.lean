import ControlFlow.CommandLine.Host

/-! A disk in memory: files and directories by the parts of their paths. It is the system of a run
whose effects are to be looked at afterwards. The disk has no links: the parts of a path lead to one
place, and two names in a directory never stand for one file. What is proved of the files that a run
leaves on a disk rests on this. -/
namespace ControlFlow.CommandLine

/-- What lies at a place of a disk. -/
inductive Item where
  | file (content : String)
  | directory
deriving DecidableEq, Repr

/-- The items of a disk by the parts of their paths, in the order in which they were made. The root
is always there. -/
structure Disk where
  items : List (List String × Item)
deriving DecidableEq, Repr

namespace Disk

/-- What lies at a place. -/
def item? (disk : Disk) (place : List String) : Option Item :=
  if place.isEmpty then some .directory else disk.items.lookup place

/-- Puts an item at a place. -/
def put (disk : Disk) (place : List String) (item : Item) : Disk :=
  if (disk.items.lookup place).isSome then
    { disk with items := disk.items.map fun (p, i) => if p == place then (p, item) else (p, i) }
  else { disk with items := disk.items ++ [(place, item)] }

/-- Goes from a directory along the parts of a path to a place. Only the last place need not
exist. -/
def walk (disk : Disk) : List String → List String → Except SystemError (List String)
  | place, [] => .ok place
  | place, part :: rest =>
    match disk.item? place with
    | none => .error .notFound
    | some (.file _) => .error .notDirectory
    | some .directory =>
      if part == "" || part == "." then disk.walk place rest
      else if part == ".." then disk.walk place.dropLast rest
      else disk.walk (place ++ [part]) rest

/-- The place of a path. -/
def locate (disk : Disk) (path : String) : Except SystemError (List String) :=
  disk.walk [] (parts path)

def readFile (disk : Disk) (path : String) : Except SystemError String := do
  match disk.item? (← disk.locate path) with
  | none => .error .notFound
  | some .directory => .error .isDirectory
  | some (.file content) => pure content

def writeFile (disk : Disk) (path content : String) : Except SystemError Disk := do
  let place ← disk.locate path
  match disk.item? place with
  | some .directory => .error .isDirectory
  | _ => pure (disk.put place (.file content))

/-- A path without slashes at its end. -/
def trimSlashes (path : String) : String :=
  String.ofList (path.toList.reverse.dropWhile (· == '/')).reverse

/-- Makes one directory. -/
def createDirectory (disk : Disk) (path : String) : Except SystemError Disk := do
  let place ← disk.locate (trimSlashes path)
  match disk.item? place with
  | some _ => .error .alreadyExists
  | none => pure (disk.put place .directory)

def isDirectory (disk : Disk) (path : String) : Bool :=
  match disk.locate path with
  | .ok place => disk.item? place == some .directory
  | .error _ => false

/-- The directories above a place, the outermost first. -/
def above (place : List String) : List (List String) :=
  (List.range place.length).filterMap fun n => if n == 0 then none else some (place.take n)

/-- Adds a file and the directories above it. -/
def addFile (disk : Disk) (path content : String) : Disk :=
  let place := (parts path).filter fun part => part != "" && part != "."
  ((above place).foldl (fun disk p => if (disk.item? p).isSome then disk else disk.put p .directory)
    disk).put place (.file content)

/-- The disk that holds some files. -/
def ofFiles (files : List (String × String)) : Disk :=
  files.foldl (fun disk (path, content) => disk.addFile path content) ⟨[]⟩

/-- The files that are on the disk and were not there, or not with this content, before. -/
def changesSince (disk before : Disk) : List (String × String) :=
  disk.items.filterMap fun (place, item) =>
    match item with
    | .file content =>
      if before.item? place == some item then none else some ("/".intercalate place, content)
    | .directory => none

end Disk

/-- A disk and the log of a run on it. -/
structure World where
  disk : Disk
  log : String

/-- Carries out a change of the disk, if there is one. -/
def changeDisk (change : Disk → Except SystemError Disk) :
    StateM World (Except SystemError Unit) := do
  match change (← get).disk with
  | .ok disk =>
    modify fun world => { world with disk }
    pure (.ok ())
  | .error error => pure (.error error)

/-- The system of a run on a disk in memory. -/
def Host.inMemory : Host (StateM World) where
  readFile path := do pure ((← get).disk.readFile path)
  writeFile path content := changeDisk (·.writeFile path content)
  createDirectory path := changeDisk (·.createDirectory path)
  isDirectory path := do pure ((← get).disk.isDirectory path)
  log text := modify fun world => { world with log := world.log ++ text }

end ControlFlow.CommandLine
