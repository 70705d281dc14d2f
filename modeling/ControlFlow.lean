import ControlFlow.CommandLine.Disk
import ControlFlow.Graph.Blocks
import ControlFlow.Main
import ControlFlow.Proofs.Except
import ControlFlow.Proofs.Graph.WellFormed
import ControlFlow.Proofs.Graph.Update
import ControlFlow.Proofs.Graph.Construction
import ControlFlow.Proofs.Text.NaturalOrder
import ControlFlow.Proofs.Graph.Walk
import ControlFlow.Proofs.Graph.Annotations
import ControlFlow.Proofs.Graph.Search
import ControlFlow.Proofs.Graph.Numbering
import ControlFlow.Proofs.Graph.Ascent
import ControlFlow.Proofs.Graph.Settling
import ControlFlow.Proofs.Graph.Dominators
import ControlFlow.Proofs.Graph.CommonDominators
import ControlFlow.Proofs.Graph.DepthFirst
import ControlFlow.Proofs.Graph.Reducible
import ControlFlow.Proofs.Graph.Quotient
import ControlFlow.Proofs.Interval.ShortCircuit
import ControlFlow.Proofs.Graph.Merge
import ControlFlow.Proofs.Hammock.Traces
import ControlFlow.Proofs.Hammock.Regions
import ControlFlow.Proofs.Hammock.Executions
import ControlFlow.Proofs.Interval.Partition
import ControlFlow.Proofs.Interval.DerivedSequence
import ControlFlow.Proofs.Interval.Collapse
import ControlFlow.Proofs.Interval.Decomposition
import ControlFlow.Proofs.Interval.Reducibility
import ControlFlow.Proofs.Interval.Loops
import ControlFlow.Proofs.Interval.NaturalLoop
import ControlFlow.Proofs.Interval.Closings
import ControlFlow.Proofs.Interval.Follow
import ControlFlow.Proofs.Interval.Waiting
import ControlFlow.Proofs.Interval.Passes
import ControlFlow.Proofs.Interval.Structuring
import ControlFlow.Proofs.Interval.LoopNotes
import ControlFlow.Proofs.Interval.Recording
import ControlFlow.Proofs.Interval.Contraction
import ControlFlow.Proofs.Interval.LoopReports
import ControlFlow.Proofs.Interval.StructuredLoops
import ControlFlow.Proofs.Interval.LoopKinds
import ControlFlow.Proofs.Interval.LoopCompleteness
import ControlFlow.Proofs.Interval.LoopFollows
import ControlFlow.Proofs.Interval.LoopFindings
import ControlFlow.Proofs.Interval.LoopTests
import ControlFlow.Proofs.Interval.InnermostLoops
import ControlFlow.Proofs.Interval.FollowNotes
import ControlFlow.Proofs.Interval.Stages
import ControlFlow.Proofs.Interval.Conditionals
import ControlFlow.Proofs.Interval.JoinedTests
import ControlFlow.Proofs.Hammock.Reducibility
import ControlFlow.Proofs.InPlace
import ControlFlow.Proofs.Interval.Levels
import ControlFlow.Proofs.Totality
import ControlFlow.Proofs.Graph.Ordered
import ControlFlow.Proofs.Graph.Rewiring
import ControlFlow.Proofs.Graph.Changes
import ControlFlow.Proofs.Graph.SingleMerge
import ControlFlow.Proofs.Hammock.Matches
import ControlFlow.Proofs.Hammock.Accounting
import ControlFlow.Proofs.Hammock.Resumption
import ControlFlow.Proofs.Hammock.Completeness
import ControlFlow.Proofs.Region
import ControlFlow.Proofs.Interval.References
import ControlFlow.Proofs.Dot.Ids
import ControlFlow.Proofs.Dot.Lexemes
import ControlFlow.Proofs.Dot.Documents
import ControlFlow.Proofs.Dot.Grammar
import ControlFlow.Proofs.Dot.Recognition
import ControlFlow.Proofs.Dot.Unambiguous
import ControlFlow.Proofs.Dot.ReservedWords
import ControlFlow.Proofs.Dot.Layout
import ControlFlow.Proofs.Dot.BareIds
import ControlFlow.Proofs.Dot.Rendering
import ControlFlow.Proofs.Dot.DescribedGraph
import ControlFlow.Proofs.Dot.Defaults
import ControlFlow.Proofs.Dot.Meaning
import ControlFlow.Proofs.Dot.Parsing
import ControlFlow.Proofs.Dot.RoundTrip
import ControlFlow.Proofs.Json.Reading
import ControlFlow.Proofs.Record
import ControlFlow.Proofs.Reachable
import ControlFlow.Proofs.Store.Lifetime
import ControlFlow.Proofs.Alternatives
import ControlFlow.Proofs.Renumbering.Annotations
import ControlFlow.Proofs.Renumbering.Hammock
import ControlFlow.Proofs.Renumbering.Interval
import ControlFlow.Proofs.Renumbering.Loops
import ControlFlow.Proofs.Renumbering.Results
import ControlFlow.Proofs.Interval.WithoutCompounds
import ControlFlow.Proofs.Interval.Repetition
import ControlFlow.Proofs.Hammock.ShapeConditions
import ControlFlow.Proofs.Graph.Terminators
import ControlFlow.Proofs.Graph.Blocks
import ControlFlow.Proofs.Graph.BranchKinds
import ControlFlow.Proofs.Condition
import ControlFlow.Proofs.CommandLine.Overwriting
