import ControlFlow.AttrMap
import ControlFlow.LoopKind

/-! Regions: the structures that an analysis recognises in a flow graph. A region names its blocks
by label and by the role they play, so it keeps its meaning while the graph changes. -/
namespace ControlFlow

/-- How a second test is joined to a first one. -/
inductive Junction where
  | and
  | or
  | andNot
  | orNot
deriving DecidableEq, Repr

/-- The kinds of regions that a record can name. -/
inductive RegionKind where
  | seq
  | ifThen
  | ifElse
  | ifReturn
  | preLoop
  | postLoop
  | endlessLoop
  | switch
  | shortCircuit (junction : Junction)
deriving DecidableEq, Repr

namespace RegionKind

/-- The name of a kind in records and texts. -/
def name : RegionKind → String
  | seq => "seq"
  | ifThen => "if"
  | ifElse => "if_else"
  | ifReturn => "if_return"
  | preLoop => "pre_loop"
  | postLoop => "post_loop"
  | endlessLoop => "inf_loop"
  | switch => "switch"
  | shortCircuit .and => "comp_cond_a_AND_b"
  | shortCircuit .or => "comp_cond_a_OR_b"
  | shortCircuit .andNot => "comp_cond_a_AND_NOT_b"
  | shortCircuit .orNot => "comp_cond_a_OR_NOT_b"

/-- All kinds. -/
def all : List RegionKind :=
  [seq, ifThen, ifElse, ifReturn, preLoop, postLoop, endlessLoop, switch, shortCircuit .and,
    shortCircuit .or, shortCircuit .andNot, shortCircuit .orNot]

/-- The kind of that name. -/
def ofName? (name : String) : Option RegionKind := all.find? (·.name == name)

end RegionKind

/-- The kind of a loop that an interval analysis has found. -/
def LoopKind.regionKind : LoopKind → RegionKind
  | pre => .preLoop
  | post => .postLoop
  | endless => .endlessLoop

/-- What a block does in its region. -/
inductive Role where
  | entry
  | exit
  | cond
  | body
  | bodyTrue
  | bodyFalse
  | latch
  | follow
  | condA
  | condB
  /-- One of the blocks that a switch leads to. -/
  | arm (index : Nat)
deriving DecidableEq, Repr

/-- The name of a role in records and texts. -/
def Role.name : Role → String
  | entry => "entry"
  | exit => "exit"
  | cond => "cond"
  | body => "body"
  | bodyTrue => "body_true"
  | bodyFalse => "body_false"
  | latch => "latch"
  | follow => "follow"
  | condA => "cond_a"
  | condB => "cond_b"
  | arm index => "body_" ++ toString index

/-- A recognised structure and the labels of its blocks. -/
inductive Region where
  /-- One block after another. -/
  | seq (entry exit : String)
  /-- A block that may be skipped. -/
  | ifThen (cond body exit : String)
  /-- Two alternatives that meet again. -/
  | ifElse (cond bodyTrue bodyFalse exit : String)
  /-- A block that control may leave for and not come back from. -/
  | ifReturn (cond body exit : String)
  /-- A loop of two blocks that is left from its first one. -/
  | preLoop (cond body exit : String)
  /-- A block that repeats itself. -/
  | postLoop (cond exit : String)
  /-- A loop of any size, known by its head and the block that closes it. -/
  | loop (kind : LoopKind) (head latch : String) (follow : Option String)
  /-- A choice between more than two blocks. -/
  | switch (cond follow : String) (bodies : List String)
  /-- Two tests joined into one. -/
  | shortCircuit (junction : Junction) (condA condB bodyTrue bodyFalse : String)
deriving DecidableEq, Repr

namespace Region

def kind : Region → RegionKind
  | seq .. => .seq
  | ifThen .. => .ifThen
  | ifElse .. => .ifElse
  | ifReturn .. => .ifReturn
  | preLoop .. => .preLoop
  | postLoop .. => .postLoop
  | loop kind .. => kind.regionKind
  | switch .. => .switch
  | shortCircuit junction .. => .shortCircuit junction

/-- The block through which control enters. -/
def entry : Region → String
  | seq entry _ => entry
  | ifThen cond .. | ifElse cond .. | ifReturn cond .. | preLoop cond .. | postLoop cond _
  | switch cond .. => cond
  | loop _ head .. => head
  | shortCircuit _ condA .. => condA

/-- The block where control goes on, if there is one. -/
def exit? : Region → Option String
  | seq _ exit | ifThen _ _ exit | ifElse _ _ _ exit | ifReturn _ _ exit | preLoop _ _ exit
  | postLoop _ exit => some exit
  | loop _ _ _ follow => follow
  | switch _ follow _ => some follow
  | shortCircuit .. => none

/-- The ends of the edge that makes a region a loop, from the block that closes it to its head. -/
def back? : Region → Option (String × String)
  | preLoop cond body _ => some (body, cond)
  | postLoop cond _ => some (cond, cond)
  | loop _ head latch _ => some (latch, head)
  | _ => none

/-- The roles and the blocks that play them. -/
def cast : Region → List (Role × String)
  | seq entry exit => [(.entry, entry), (.exit, exit)]
  | ifThen cond body exit | ifReturn cond body exit | preLoop cond body exit =>
    [(.cond, cond), (.body, body), (.exit, exit)]
  | ifElse cond bodyTrue bodyFalse exit =>
    [(.cond, cond), (.bodyTrue, bodyTrue), (.bodyFalse, bodyFalse), (.exit, exit)]
  | postLoop cond exit => [(.cond, cond), (.exit, exit)]
  | loop _ head latch follow =>
    [(.cond, head), (.latch, latch)] ++ (follow.map fun label => (.follow, label)).toList
  | switch cond follow bodies =>
    [(.cond, cond), (.follow, follow)] ++ bodies.mapIdx fun i body => (.arm i, body)
  | shortCircuit _ condA condB bodyTrue bodyFalse =>
    [(.condA, condA), (.condB, condB), (.bodyTrue, bodyTrue), (.bodyFalse, bodyFalse)]

/-- The labels by the names of their roles. -/
def roles (region : Region) : AttrMap :=
  .ofList (region.cast.map fun (role, label) => (role.name, label))

/-- The labels of all blocks, each once: the entry first, the others in the order of the names of
their roles. -/
def labels (region : Region) : List String :=
  (region.entry :: region.roles.entries.map Prod.snd).foldl
    (fun labels label => if labels.contains label then labels else labels ++ [label]) []

/-- A line that shows the kind, the roles and the labels. -/
def text (region : Region) : String :=
  region.kind.name ++ "(" ++
    ", ".intercalate (region.roles.entries.map fun (role, label) => role ++ "=" ++ label) ++ ")"

end Region

/-- Why roles make no region. -/
inductive RoleError where
  | missing (kind : RegionKind) (role : Role)
  | unexpected (kind : RegionKind) (role : String)
deriving DecidableEq, Repr

namespace RoleError

def detail : RoleError → String
  | missing kind role => kind.name ++ " is missing role '" ++ role.name ++ "'"
  | unexpected kind role => kind.name ++ " has unexpected role '" ++ role ++ "'"

def message (error : RoleError) : String := "Malformed primitive - " ++ error.detail

end RoleError

namespace Region

/-- The label of a role that a region of this kind has to have. -/
def need (kind : RegionKind) (roles : AttrMap) (role : Role) : Except RoleError String :=
  match roles.get? role.name with
  | some label => .ok label
  | none => .error (.missing kind role)

/-- The arms of a switch, numbered from `index` without a gap. -/
def armsFrom (roles : AttrMap) (index : Nat) : Nat → List String
  | 0 => []
  | bound + 1 =>
    match roles.get? (Role.arm index).name with
    | some label => label :: armsFrom roles (index + 1) bound
    | none => []

/-- Reads a loop that is known by its head and its latch. -/
def loopOfRoles (kind : RegionKind) (loopKind : LoopKind) (roles : AttrMap) :
    Except RoleError Region := do
  let head ← need kind roles .cond
  let latch ← need kind roles .latch
  pure (.loop loopKind head latch (roles.get? Role.follow.name))

/-- Reads the roles that a kind of region has, and passes over all others. A loop that names its
latch is one that an interval analysis has found. -/
def ofNeededRoles (kind : RegionKind) (roles : AttrMap) : Except RoleError Region := do
  let need := need kind roles
  let hasLatch := (roles.get? Role.latch.name).isSome
  match kind with
  | .seq => pure (.seq (← need .entry) (← need .exit))
  | .ifThen => pure (.ifThen (← need .cond) (← need .body) (← need .exit))
  | .ifReturn => pure (.ifReturn (← need .cond) (← need .body) (← need .exit))
  | .ifElse =>
    pure (.ifElse (← need .cond) (← need .bodyTrue) (← need .bodyFalse) (← need .exit))
  | .endlessLoop => loopOfRoles kind .endless roles
  | .preLoop =>
    if hasLatch then loopOfRoles kind .pre roles
    else pure (.preLoop (← need .cond) (← need .body) (← need .exit))
  | .postLoop =>
    if hasLatch then loopOfRoles kind .post roles
    else pure (.postLoop (← need .cond) (← need .exit))
  | .switch =>
    pure (.switch (← need .cond) (← need .follow) (armsFrom roles 0 roles.entries.length))
  | .shortCircuit junction =>
    pure (.shortCircuit junction (← need .condA) (← need .condB) (← need .bodyTrue)
      (← need .bodyFalse))

/-- Reads a region from its kind and roles, which must be exactly the roles of such a region. -/
def ofRoles (kind : RegionKind) (roles : AttrMap) : Except RoleError Region := do
  let region ← ofNeededRoles kind roles
  match roles.entries.find? fun (role, _) => (region.roles.get? role).isNone with
  | some (role, _) => .error (.unexpected kind role)
  | none => pure region

end Region

end ControlFlow
