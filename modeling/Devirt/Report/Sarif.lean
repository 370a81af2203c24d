import Devirt.Report

/-!
# Reports in the static analysis results format

One run per analysis, with the analysis as its only rule and one result per call.

* `Invocation` : the command that produced a report;
* `sarif runs invocation` : the report.
-/

namespace Devirt

/-- The command that produced a report: the program and its arguments. -/
structure Invocation where
  arguments : List String
deriving DecidableEq, Repr

def toolName : String := "callgraph"

def toolVersion : String := "0.1.0"

namespace Sarif

def invocation (i : Invocation) : Json :=
  .obj [("arguments", .arr (i.arguments.map .str)),
    ("commandLine", .str (" ".intercalate i.arguments)),
    ("executionSuccessful", .bool true)]

def location (m : MethodRef) : Json :=
  .obj [("logicalLocations", .arr [.obj [("kind", .str "function"), ("name", .str m.text)]])]

def message (text : String) : Json := .obj [("text", .str text)]

def result (a : Algorithm) (caller callee : MethodRef) : Json :=
  .obj [("locations", .arr [location caller]),
    ("message", message (caller.text ++ " may call " ++ callee.text)),
    ("relatedLocations", .arr [location callee]),
    ("ruleId", .str a.id)]

/-- The tool with its only rule. -/
def tool (a : Algorithm) : Json :=
  .obj [("driver", .obj [("name", .str toolName),
    ("rules", .arr [.obj [("id", .str a.id), ("name", .str a.title),
      ("shortDescription", message a.description)]]),
    ("version", .str toolVersion)])]

def run (i : Invocation) (r : Run) : Json :=
  .obj [("invocations", .arr [invocation i]),
    ("results", .arr (r.graph.edges.toList.map (fun (caller, callee) =>
      result r.algorithm caller callee))),
    ("tool", tool r.algorithm)]

/-- Where the format is defined. -/
def schemaAddress : String := "https://schemastore.azurewebsites.net/schemas/json/sarif-2.1.0.json"

end Sarif

def sarif (runs : List Run) (i : Invocation) : Json :=
  .obj [("$schema", .str Sarif.schemaAddress),
    ("runs", .arr (runs.map (Sarif.run i))),
    ("version", .str "2.1.0")]

end Devirt
