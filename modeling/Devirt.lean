import Devirt.Analysis
import Devirt.Analysis.Algorithms
import Devirt.Analysis.Hierarchy
import Devirt.Analysis.Instantiation
import Devirt.Analysis.ValueFlow
import Devirt.AnalysisError
import Devirt.CallGraph
import Devirt.Code
import Devirt.Code.Decode
import Devirt.Code.DecodeError
import Devirt.Code.Encode
import Devirt.CommandLine
import Devirt.CommandLine.Exit
import Devirt.CommandLine.Log
import Devirt.CommandLine.Log.Directive
import Devirt.CommandLine.Run
import Devirt.Components
import Devirt.Components.Lemmas
import Devirt.Event
import Devirt.FileTree
import Devirt.FlowGraph
import Devirt.FlowGraph.Statements
import Devirt.Json
import Devirt.Json.Double
import Devirt.Json.Print
import Devirt.Json.Read
import Devirt.Json.Shortest
import Devirt.Json.Token
import Devirt.Loading
import Devirt.Main
import Devirt.OrderKey
import Devirt.Ordered
import Devirt.Program
import Devirt.Program.Dispatch
import Devirt.Proofs.Contributions
import Devirt.Proofs.Dispatch
import Devirt.Proofs.FlowGraph
import Devirt.Proofs.Hierarchy
import Devirt.Proofs.Instantiation
import Devirt.Proofs.Precision
import Devirt.Proofs.Propagation
import Devirt.Proofs.Rounds
import Devirt.Proofs.Saturation
import Devirt.Proofs.Traversal
import Devirt.Proofs.ValueFlow
import Devirt.Reach
import Devirt.Report
import Devirt.Report.Sarif
import Devirt.Roster
import Devirt.Schema
import Devirt.Snapshot
import Devirt.Text
import Devirt.Text.Letter
import Devirt.Text.Pattern
import Devirt.Text.Pattern.Bracket
import Devirt.Text.Pattern.Escape
import Devirt.Text.Pattern.Mode
import Devirt.Text.Pattern.Opening
import Devirt.Text.Shown
import Devirt.Traversal
import Devirt.Proofs.Warnings
import Devirt.Proofs.Masking
import Devirt.Proofs.Agreement
import Devirt.Proofs.Growth
import Devirt.Proofs.Extension
import Devirt.Proofs.Lockstep
import Devirt.Proofs.StandIns
import Devirt.Proofs.Commands
import Devirt.Proofs.Spelling
import Devirt.Proofs.Spelling.Code
import Devirt.Proofs.Validation
import Devirt.Proofs.Simulation
import Devirt.Proofs.Marks
import Devirt.Proofs.Baseline
import Devirt.Proofs.Ordered
import Devirt.Proofs.LostResults
import Devirt.Proofs.Classpath
import Devirt.Proofs.BreadthFirst
import Devirt.Proofs.Lookup
import Devirt.Proofs.Specificity
import Devirt.Proofs.Subtypes
import Devirt.Proofs.LookupSteps
import Devirt.Proofs.ComponentNumbers
import Devirt.Proofs.MethodFlows
import Devirt.Proofs.Rearrangement
import Devirt.Proofs.Tables
import Devirt.Proofs.Tables.Propagation
import Devirt.Proofs.Reports
