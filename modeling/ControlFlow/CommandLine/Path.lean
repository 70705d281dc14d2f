/-! File paths. A path is text; its parts stand between slashes, and parts that are empty or a
single point count for nothing except at the front. -/
namespace ControlFlow.CommandLine

/-- Whether a path begins at the root. -/
def isAbsolute (path : String) : Bool := path.toList.head? == some '/'

/-- Drops the parts at the end of a path, its first part apart, that count for nothing. The parts
are given from the last one on. -/
def trimParts : List String → List String
  | part :: first :: rest =>
    if part == "" || part == "." then trimParts (first :: rest) else part :: first :: rest
  | parts => parts

/-- The parts of a path as they stand between its slashes. -/
def parts (path : String) : List String := (path.toList.splitOn '/').map String.ofList

/-- The parts of a path from the last one on. -/
def partsBack (path : String) : List String := trimParts (parts path).reverse

/-- The path of some parts, given from the last one on. -/
def ofPartsBack (absolute : Bool) (parts : List String) : String :=
  if absolute && parts.length ≤ 1 then "/" else "/".intercalate parts.reverse

/-- The last part of a path, if it names a file. -/
def fileName? (path : String) : Option String :=
  match partsBack path with
  | [] => none
  | part :: _ => if part == "" || part == "." || part == ".." then none else some part

/-- The path without its last part. The root and the empty path have no last part. -/
def parent? (path : String) : Option String :=
  match partsBack path with
  | [] | [""] => none
  | _ :: rest => some (if rest.isEmpty then "" else ofPartsBack (isAbsolute path) (trimParts rest))

/-- A file name without its extension. A point at the front begins no extension. -/
def stemOf (name : String) : String :=
  if name == ".." then name
  else
    let back := name.toList.reverse
    match back.dropWhile (· != '.') with
    | [] | ['.'] => name
    | _ :: rest => String.ofList rest.reverse

/-- What the outputs for a file are named after. -/
def stem (path : String) : String := ((fileName? path).map stemOf).getD "graph"

/-- What a file is called in reports. -/
def displayName (path : String) : String := (fileName? path).getD path

/-- The path of a file in a directory. -/
def joinPath (directory name : String) : String :=
  if directory == "" then name
  else if directory.toList.getLast? == some '/' then directory ++ name
  else directory ++ "/" ++ name

/-- The path of an output for a file: in the given directory, or beside the file. -/
def outputPath (path : String) (directory : Option String) (ending : String) : String :=
  joinPath ((directory.or (parent? path)).getD "") (stem path ++ "." ++ ending)

end ControlFlow.CommandLine
