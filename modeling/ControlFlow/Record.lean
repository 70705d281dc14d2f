import ControlFlow.Json.Pretty
import ControlFlow.Json.View
import ControlFlow.Region

/-! Records of regions. A record gives the kind of a region, the labels by role, and once more the
entry and the exit; it is accepted only if these agree with the roles. A list of regions is a JSON
sequence of records. -/
namespace ControlFlow

/-- The written form of a region. -/
structure Record where
  prim : String
  nodes : AttrMap
  entry : String
  exit : Option String
deriving DecidableEq

/-- Why a record is that of no region. -/
inductive RecordError where
  | unknownKind (name : String)
  | roles (cause : RoleError)
  | wrongEntry (kind : RegionKind) (given expected : String)
  | wrongExit (kind : RegionKind) (given expected : Option String)
deriving DecidableEq, Repr

namespace RecordError

def message : RecordError → String
  | unknownKind name => "Not implemented - primitive kind '" ++ name ++ "'"
  | roles cause => cause.message
  | wrongEntry kind given expected =>
    "Malformed primitive - " ++ kind.name ++ " entry '" ++ given ++
      "' does not match its roles (expected '" ++ expected ++ "')"
  | wrongExit kind given expected =>
    "Malformed primitive - " ++ kind.name ++ " exit " ++ Text.optionLiteral given ++
      " does not match its roles (expected " ++ Text.optionLiteral expected ++ ")"

end RecordError

namespace Record

/-- The record of a region. -/
def ofRegion (region : Region) : Record where
  prim := region.kind.name
  nodes := region.roles
  entry := region.entry
  exit := region.exit?

/-- The region of a record. -/
def toRegion (record : Record) : Except RecordError Region := do
  match RegionKind.ofName? record.prim with
  | none => .error (.unknownKind record.prim)
  | some kind =>
    let region ← (Region.ofRoles kind record.nodes).mapError .roles
    if region.entry != record.entry then .error (.wrongEntry kind record.entry region.entry)
    else if region.exit? != record.exit then .error (.wrongExit kind record.exit region.exit?)
    else pure region

/-- The JSON form of a record. An absent exit is left out. -/
def toValue (record : Record) : Json.Value :=
  .object <|
    [("prim", .string record.prim),
      ("nodes", .object (record.nodes.entries.map fun (role, label) => (role, .string label))),
      ("entry", .string record.entry)] ++
    (record.exit.map fun exit => ("exit", Json.Value.string exit)).toList

/-- The fields of a record that have been read so far. -/
structure Draft where
  prim : Option String
  nodes : Option AttrMap
  entry : Option String
  exit : Option (Option String)

/-- Reading of a record or of a part of it. -/
abbrev Reading (α : Type) := Json.Reader RecordError α

/-- Reads a field that must not have been read before. -/
def readField (name : String) (seen : Option α) (reader : Reading α)
    (store : α → Draft) : Reading Draft := fun cs => do
  if seen.isSome then .error (.duplicateField name)
  else
    let (_, rest) ← Json.closing ':' cs
    let (value, rest) ← reader rest
    pure (store value, rest)

/-- Reads a map of labels; of two labels for a role the later one stays. -/
def readNodes : Reading AttrMap := fun cs => do
  let (entries, rest) ← Json.readMap cs
  pure (.ofList entries, rest)

/-- Reads the field of that name behind the name. A field that records do not have is passed
over. -/
def readMember (draft : Draft) (name : String) : Reading Draft :=
  match name with
  | "prim" => readField name draft.prim Json.readText fun v => { draft with prim := some v }
  | "nodes" => readField name draft.nodes readNodes fun v => { draft with nodes := some v }
  | "entry" => readField name draft.entry Json.readText fun v => { draft with entry := some v }
  | "exit" => readField name draft.exit Json.readText? fun v => { draft with exit := some v }
  | _ => readField name (none : Option Unit) Json.skipAny fun _ => draft

/-- Reads members up to the closing brace, at most `bound` of them. -/
def readMembersWithin : Nat → Bool → Draft → Reading Draft
  | 0, _, _, _ => .error (.text .cutOff)
  | bound + 1, first, draft, cs => do
    let (more, rest) ← Json.nextKey first cs
    if more then
      let (name, rest) ← Json.ofScan (Json.readString rest)
      let (draft, rest) ← readMember draft name rest
      readMembersWithin bound false draft rest
    else pure (draft, rest)

/-- The record of the fields that have been read. Only the exit may be missing. -/
def Draft.finish (draft : Draft) : Except (Json.ReadError RecordError) Record :=
  match draft.prim, draft.nodes, draft.entry with
  | none, _, _ => .error (.missingField "prim")
  | _, none, _ => .error (.missingField "nodes")
  | _, _, none => .error (.missingField "entry")
  | some prim, some nodes, some entry => .ok ⟨prim, nodes, entry, draft.exit.getD none⟩

/-- What a record is called where something else is found. -/
def wanted : String := "struct PrimitiveRecord"

/-- Reads the next item of a record that is written as a sequence. Without one the record is too
short. -/
def readItem (index : Nat) (reader : Reading α) : Reading α := fun cs => do
  let (more, rest) ← Json.nextItem (index == 0) cs
  if more then reader rest else .error (.wrongLength index (wanted ++ " with 4 elements"))

/-- Reads a record that is written as a sequence, behind the bracket. The exit may be missing. -/
def readItems : Reading Record := fun cs => do
  let (prim, rest) ← readItem 0 Json.readText cs
  let (nodes, rest) ← readItem 1 readNodes rest
  let (entry, rest) ← readItem 2 Json.readText rest
  let (more, rest) ← Json.nextItem false rest
  let (exit, rest) ← if more then Json.readText? rest else pure (none, rest)
  let (_, rest) ← Json.closing ']' rest
  pure (⟨prim, nodes, entry, exit⟩, rest)

/-- Reads a record. -/
def read : Reading Record := fun cs => do
  let (c, rest) ← Json.peek cs
  if c == '\x7b' then
    let (draft, rest) ← readMembersWithin (rest.length + 1) true ⟨none, none, none, none⟩ rest
    let record ← draft.finish
    pure (record, (← Json.closing '\x7d' rest).2)
  else if c == '[' then readItems rest
  else .error (Json.mismatch wanted c rest)

/-- The fields with one more, which must not have been given before. -/
def putField (name : String) (seen : Option α) (value : Except (Json.ReadError RecordError) α)
    (store : α → Draft) : Except (Json.ReadError RecordError) Draft := do
  if seen.isSome then .error (.duplicateField name) else pure (store (← value))

/-- The fields with one more member of an object. -/
def putMember (draft : Draft) : String × Json.Value → Except (Json.ReadError RecordError) Draft
  | ("prim", value) => putField "prim" draft.prim value.asText fun v => { draft with prim := some v }
  | ("nodes", value) =>
    putField "nodes" draft.nodes (AttrMap.ofList <$> value.asMap) fun v =>
      { draft with nodes := some v }
  | ("entry", value) =>
    putField "entry" draft.entry value.asText fun v => { draft with entry := some v }
  | ("exit", value) => putField "exit" draft.exit value.asText? fun v => { draft with exit := some v }
  | _ => pure draft

/-- The record whose fields stand in an array. The exit may be missing. -/
def ofItems (items : List Json.Value) : Except (Json.ReadError RecordError) Record := do
  let item (index : Nat) : Except (Json.ReadError RecordError) Json.Value :=
    match items[index]? with
    | some value => .ok value
    | none => .error (.wrongLength index (wanted ++ " with 4 elements"))
  let prim ← (← item 0).asText
  let nodes ← AttrMap.ofList <$> (← item 1).asMap
  let entry ← (← item 2).asText
  let exit ← (items[3]?.getD Json.Value.null).asText?
  if items.length ≤ 4 then pure ⟨prim, nodes, entry, exit⟩
  else .error (.wrongLength items.length "fewer elements in array")

/-- The record that a JSON value stands for. -/
def ofValue : Json.Value → Except (Json.ReadError RecordError) Record
  | .object members => do (← members.foldlM putMember ⟨none, none, none, none⟩).finish
  | .array items => ofItems items
  | value => .error (value.mismatch wanted)

/-- The region of a record that was read. -/
def accept (record : Record) : Except (Json.ReadError RecordError) Region :=
  record.toRegion.mapError .rejected

/-- Reads a record and makes a region of it. -/
def readRegion : Reading Region := fun cs => do
  let (record, rest) ← read cs
  pure (← record.accept, rest)

end Record

namespace Region

/-- The text of a list of regions. -/
def listText (regions : List Region) : String :=
  (Json.Value.array (regions.map fun region => (Record.ofRegion region).toValue)).text

/-- Reads a list of regions. -/
def readList (text : String) : Except (Json.ReadError RecordError) (List Region) :=
  Json.readAll (Json.readSequence Record.readRegion) text

/-- The region that a JSON value stands for. -/
def ofValue (value : Json.Value) : Except (Json.ReadError RecordError) Region := do
  (← Record.ofValue value).accept

end Region

end ControlFlow
