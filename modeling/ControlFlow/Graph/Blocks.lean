import ControlFlow.Graph.Update

/-! Flow graphs of basic blocks. A block names where control goes when it ends; the edges, their
conditions, the entry and the hint whether a block does nothing but test are derived from that. -/
namespace ControlFlow

/-- How a basic block ends. -/
inductive Terminator where
  | return
  | unreachable
  | jump (target : String)
  | branch (ifTrue ifFalse : String)
  | switch (cases : List (String × String)) (otherwise : String)
  | unsupported (mnemonic : String)
deriving DecidableEq, Repr

/-- A straight run of instructions and its end. -/
structure BasicBlock where
  name : String
  instructionCount : Nat
  terminator : Terminator
deriving DecidableEq, Repr

/-- Why blocks make no graph. -/
inductive BlockError where
  | graph (cause : GraphError)
  | unsupportedTerminator (mnemonic : String)
deriving DecidableEq, Repr

namespace BlockError

def message : BlockError → String
  | graph cause => cause.message
  | unsupportedTerminator mnemonic => "Not implemented - terminator '" ++ mnemonic ++ "'"

end BlockError

namespace Terminator

/-- Adds a case to the arms of a switch. Cases with one target share an edge. -/
def addArm (value target : String) : List (String × String) → List (String × String)
  | [] => [(target, value)]
  | (t, values) :: rest =>
    if t == target then (t, values ++ ", " ++ value) :: rest
    else (t, values) :: addArm value target rest

/-- The arms of a switch in the order of their first cases. A case that leads where the switch
goes anyway adds nothing. -/
def arms (otherwise : String) (cases : List (String × String)) : List (String × String) :=
  (cases.filter fun (_, target) => target != otherwise).foldl
    (fun arms (value, target) => addArm value target arms) []

/-- Where control goes, each target once, with the condition to be written on the edge. -/
def targets : Terminator → Except BlockError (List (String × Option String))
  | .return | .unreachable => .ok []
  | .jump target => .ok [(target, none)]
  | .branch ifTrue ifFalse =>
    if ifTrue == ifFalse then .ok [(ifTrue, none)]
    else .ok [(ifTrue, some "true"), (ifFalse, some "false")]
  | .switch cases otherwise =>
    .ok <| (arms otherwise cases).map (fun (target, values) => (target, some values)) ++
      [(otherwise, some "default")]
  | .unsupported mnemonic => .error (.unsupportedTerminator mnemonic)

end Terminator

namespace FlowGraph

/-- The attributes of a block's node. The first block is the entry, and a block of more than one
instruction does more than test. -/
def blockAttrs (isFirst : Bool) (block : BasicBlock) : AttrMap :=
  .ofList <|
    (if isFirst then [("entry", "true")] else []) ++
    (if block.instructionCount > 1 then [("cond_node", "false")] else [])

/-- Adds a node for each block. -/
def addBlocks (g : FlowGraph) (isFirst : Bool) : List BasicBlock → Except GraphError FlowGraph
  | [] => .ok g
  | block :: rest => do
    let (_, g) ← g.addNode block.name (blockAttrs isFirst block)
    g.addBlocks false rest

/-- Adds the edge from one block to one of its targets. -/
def addTarget (g : FlowGraph) (block : String) (target : String) (cond : Option String) :
    Except GraphError FlowGraph :=
  match g.find? block, g.find? target with
  | some source, some id => do
    let attrs := .ofList (cond.map fun c => ("cond", c)).toList
    pure (← g.addEdge source id attrs).2
  | _, _ => .error (.unknownTarget block target)

/-- Adds the edges that leave one block. -/
def addTargets (g : FlowGraph) (block : BasicBlock) : Except BlockError FlowGraph := do
  let targets ← block.terminator.targets
  targets.foldlM (fun g (target, cond) =>
    (g.addTarget block.name target cond).mapError .graph) g

/-- The flow graph of a list of blocks. -/
def ofBlocks (name : String) (blocks : List BasicBlock) : Except BlockError FlowGraph := do
  if blocks.isEmpty then .error (.graph .noBlocks)
  else
    let g ← ((empty name).addBlocks true blocks).mapError .graph
    blocks.foldlM addTargets g

end FlowGraph

end ControlFlow
