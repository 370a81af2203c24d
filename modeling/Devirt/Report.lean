import Devirt.Analysis

/-!
# Reports

What runs found, with methods as texts.

* `Report.ofRuns` : nodes and edges in the order of discovery, warnings in their order;
* `Report.encode` : a report as an object.
-/

namespace Devirt

/-- A run with its methods as texts. -/
structure RunReport where
  algorithm : String
  nodes : List String
  edges : List (String × String)
  warnings : List (String × String)
deriving DecidableEq, Repr

structure Report where
  runs : List RunReport
deriving DecidableEq, Repr

def RunReport.ofRun (r : Run) : RunReport where
  algorithm := r.algorithm.id
  nodes := r.graph.nodes.toList.map MethodRef.text
  edges := r.graph.edges.toList.map (fun (caller, callee) => (caller.text, callee.text))
  warnings := r.warnings.map (fun w => (w.caller.text, w.signature.text))

def RunReport.encode (r : RunReport) : Json :=
  .obj [("algorithm", .str r.algorithm),
    ("nodes", .arr (r.nodes.map .str)),
    ("edges", .arr (r.edges.map (fun (caller, callee) =>
      .obj [("caller", .str caller), ("callee", .str callee)]))),
    ("warnings", .arr (r.warnings.map (fun (caller, signature) =>
      .obj [("caller", .str caller), ("signature", .str signature)])))]

def Report.ofRuns (runs : List Run) : Report := ⟨runs.map RunReport.ofRun⟩

def Report.encode (r : Report) : Json := .obj [("runs", .arr (r.runs.map RunReport.encode))]

end Devirt
