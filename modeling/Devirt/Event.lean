import Devirt.AnalysisError
import Devirt.Json
import Devirt.Text.Shown

/-!
# Log events

* `Level` : how grave an event is;
* `Event` : what happened; `Event.level`, `Event.target`, `Event.message` and `Event.fields` say
  how it is shown;
* `Event.encode` : an event as an object; `Event.line` : as a line of text.
-/

namespace Devirt

/-! ## Events -/

/-- How grave an event is. -/
inductive Level where
  | error
  | warn
  | info
  | debug
  | trace
deriving DecidableEq, Repr, Inhabited

namespace Level

/-- Zero for the gravest. -/
def rank : Level → Nat
  | error => 0
  | warn => 1
  | info => 2
  | debug => 3
  | trace => 4

def name : Level → String
  | error => "error"
  | warn => "warn"
  | info => "info"
  | debug => "debug"
  | trace => "trace"

/-- The name of a level in log lines. -/
def label : Level → String
  | error => "ERROR"
  | warn => "WARN"
  | info => "INFO"
  | debug => "DEBUG"
  | trace => "TRACE"

end Level

inductive Event where
  | fileSkipped (path : String)
  | snapshotsLoaded (files classes entryPoints : Nat)
  | duplicateClass (name : String)
  | entryPointSkipped (method : MethodRef)
  | noTarget (caller signature : MethodRef)
  | hierarchyBuilt (nodes edges : Nat)
  | classInstantiated (owner : String) (caller : MethodRef)
  | instantiationBuilt (nodes edges classes rounds : Nat)
  | flowPropagated (round values flows components tagged : Nat)
  | resultUntagged (caller : MethodRef) (error : AnalysisError)
  | flowBuilt (nodes edges baselineEdges rounds : Nat)
deriving DecidableEq, Repr, Inhabited

/-- A field of an event: a count, a text, or a text that lines show in quotes. -/
inductive FieldValue where
  | count (n : Nat)
  | text (s : String)
  | quoted (s : String)
deriving DecidableEq, Repr

namespace Event

def level : Event → Level
  | fileSkipped .. | snapshotsLoaded .. | entryPointSkipped .. | classInstantiated ..
  | flowPropagated .. => .debug
  | hierarchyBuilt .. | instantiationBuilt .. | flowBuilt .. => .info
  | duplicateClass .. | noTarget .. | resultUntagged .. => .warn

/-- The part of the program that tells an event. -/
def target : Event → String
  | fileSkipped .. | snapshotsLoaded .. => "callgraph::scan"
  | duplicateClass .. => "callgraph::program"
  | entryPointSkipped .. | noTarget .. => "callgraph::algorithms"
  | hierarchyBuilt .. => "callgraph::algorithms::cha"
  | classInstantiated .. | instantiationBuilt .. => "callgraph::algorithms::rta"
  | flowPropagated .. | resultUntagged .. | flowBuilt .. => "callgraph::algorithms::vta"

def message : Event → String
  | fileSkipped .. => "skipping non-snapshot file"
  | snapshotsLoaded .. => "snapshots loaded"
  | duplicateClass .. => "duplicate class definition ignored"
  | entryPointSkipped .. => "skipping entry point without body"
  | noTarget .. => "dispatch resolved to no target"
  | hierarchyBuilt .. | instantiationBuilt .. | flowBuilt .. => "call graph built"
  | classInstantiated .. => "class instantiated"
  | flowPropagated .. => "type assignment graph propagated"
  | resultUntagged .. => "call result left untagged"

/-- The fields of an event, in the order of log lines. -/
def fields : Event → List (String × FieldValue)
  | fileSkipped path => [("path", .text path)]
  | snapshotsLoaded files classes entryPoints =>
    [("files", .count files), ("classes", .count classes), ("entry_points", .count entryPoints)]
  | duplicateClass name => [("class", .text name)]
  | entryPointSkipped m => [("method", .text m.text)]
  | noTarget caller s => [("caller", .text caller.text), ("signature", .text s.text)]
  | hierarchyBuilt nodes edges =>
    [("algorithm", .quoted "CHA"), ("nodes", .count nodes), ("edges", .count edges)]
  | classInstantiated owner caller => [("class", .quoted owner), ("caller", .text caller.text)]
  | instantiationBuilt nodes edges classes rounds =>
    [("algorithm", .quoted "RTA"), ("nodes", .count nodes), ("edges", .count edges),
      ("instantiated", .count classes), ("rounds", .count rounds)]
  | flowPropagated round values flows components tagged =>
    [("round", .count round), ("values", .count values), ("flows", .count flows),
      ("components", .count components), ("tagged", .count tagged)]
  | resultUntagged caller error => [("caller", .text caller.text), ("error", .text error.message)]
  | flowBuilt nodes edges baselineEdges rounds =>
    [("algorithm", .quoted "VTA"), ("nodes", .count nodes), ("edges", .count edges),
      ("baseline_edges", .count baselineEdges), ("rounds", .count rounds)]

/-- The names by which a log setting can ask for an event: those of its fields, and the one under
which its wording counts as a field. -/
def fieldNames (e : Event) : List String := "message" :: e.fields.map (·.1)

/-! ## Showing events -/

def encodeField : FieldValue → Json
  | .count n => .int n
  | .text s | .quoted s => .str s

/-- An event as an object of its fields, its level and its message. -/
def encode (e : Event) : Json :=
  .obj ([("level", .str e.level.name), ("message", .str e.message)] ++
    e.fields.map (fun (k, v) => (k, encodeField v)))

def fieldText : FieldValue → String
  | .count n => toString n
  | .text s => s
  | .quoted s => Text.quoted s

def line (e : Event) : String :=
  e.level.label ++ " " ++ e.target ++ ": " ++ e.message ++
    String.join (e.fields.map (fun (k, v) => " " ++ k ++ "=" ++ fieldText v)) ++ "\n"

end Event

end Devirt
