import ControlFlow.Analysis
import ControlFlow.Interval.DerivedSequence
import ControlFlow.Record
import ControlFlow.Strategy
import ControlFlow.Text.Table

/-! Reports: what a run prints about a graph, as text or as JSON. -/
namespace ControlFlow.CommandLine

/-- Lines, each ended. -/
def ofLines (lines : List String) : String := String.join (lines.map (· ++ "\n"))

/-- What was found in one file. -/
structure StructureReport where
  file : String
  graph : String
  method : Strategy
  analysis : Analysis
deriving DecidableEq, Repr

namespace StructureReport

/-- The JSON form of what is left of a graph. -/
def remainderValue (remainder : Remainder) : Json.Value :=
  .object [("remaining", .ofNat remainder.size), ("cancelled", .boolean remainder.cancelled)]

def toValue (report : StructureReport) : Json.Value :=
  .object [("file", .string report.file), ("graph", .string report.graph),
    ("method", .string report.method.name),
    ("primitives", .array (report.analysis.regions.map fun r => (Record.ofRegion r).toValue)),
    ("incomplete", .ofOption remainderValue report.analysis.remainder)]

/-- Why nothing more was found. -/
def reason (remainder : Remainder) : String :=
  if remainder.cancelled then "cancelled" else "no pattern matches"

/-- The row of a region. -/
def regionRow (index : Nat) (region : Region) : List String :=
  [toString (index + 1), region.kind.name, region.entry, region.exit?.getD "-",
    " ".intercalate (region.roles.entries.map fun (role, label) => role ++ "=" ++ label)]

/-- The table of all regions. -/
def table (regions : List Region) : Text.Table where
  columns := [(.right, "#"), (.left, "prim"), (.left, "entry"), (.left, "exit"), (.left, "roles")]
  rows := regions.mapIdx regionRow

def lines (report : StructureReport) : List String :=
  let regions := report.analysis.regions
  [report.file ++ " (" ++ report.method.name ++ "): " ++ toString regions.length ++
    " primitives"] ++
  (report.analysis.remainder.map fun remainder =>
    "  incomplete: " ++ toString remainder.size ++ " nodes left, " ++ reason remainder).toList ++
  if regions.isEmpty then [] else (table regions).lines "  "

/-- The text of the reports on several files, with an empty line between two. -/
def listText (reports : List StructureReport) : String :=
  ofLines ([""].intercalate (reports.map lines))

def listValue (reports : List StructureReport) : Json.Value := .array (reports.map toValue)

end StructureReport

/-- The intervals of one graph of a derived sequence, by label. -/
structure LevelReport where
  size : Nat
  /-- The label of each header and the labels of the nodes of its interval. -/
  intervals : List (String × List String)
deriving DecidableEq, Repr

/-- The derived sequence of the graph in a file. -/
structure SequenceReport where
  file : String
  reducible : Bool
  levels : List LevelReport
deriving DecidableEq, Repr

namespace SequenceReport

def ofLevels (file : String) (levels : List Level) : SequenceReport where
  file := file
  reducible := Level.reducible levels
  levels := levels.map fun level =>
    { size := level.graph.size
      intervals := level.intervals.map fun interval =>
        (level.graph.label interval.header, interval.nodes.map level.graph.label) }

def intervalValue (interval : String × List String) : Json.Value :=
  .object [("header", .string interval.1), ("nodes", .array (interval.2.map .string))]

def levelValue (index : Nat) (level : LevelReport) : Json.Value :=
  .object [("level", .ofNat (index + 1)), ("node_count", .ofNat level.size),
    ("intervals", .array (level.intervals.map intervalValue))]

def toValue (report : SequenceReport) : Json.Value :=
  .object [("file", .string report.file), ("reducible", .boolean report.reducible),
    ("levels", .array (report.levels.mapIdx levelValue))]

/-- The table of the intervals of a level. -/
def table (level : LevelReport) : Text.Table where
  columns := [(.left, "header"), (.left, "nodes")]
  rows := level.intervals.map fun (header, nodes) => [header, " ".intercalate nodes]

def levelLines (index : Nat) (level : LevelReport) : List String :=
  ["", "  G" ++ toString (index + 1) ++ " (" ++ toString level.size ++ " nodes)"] ++
    (table level).lines "    "

def text (report : SequenceReport) : String :=
  ofLines <|
    [report.file ++ ": " ++ toString report.levels.length ++ " levels, " ++
      if report.reducible then "reducible" else "irreducible"] ++
    (report.levels.mapIdx levelLines).flatten

end SequenceReport

end ControlFlow.CommandLine
