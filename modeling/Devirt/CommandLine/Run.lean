import Devirt.CommandLine
import Devirt.Loading
import Devirt.Report.Sarif

/-!
# Runs of the command

* `RunError` : why a run fails;
* `Outcome` : what a run leaves behind: output, timing lines, events, files, and a failure if
  there is one;
* `runOptions` : loads, analyses and reports. The output is opened after the analyses, so the
  timing of each is told even if that fails.
-/

namespace Devirt

/-! ## Failures -/

inductive RunError where
  | inputNotFound (path : String)
  | libraryNotFound (path : String)
  | load (error : LoadError)
  | analysis (algorithm : Algorithm) (error : AnalysisError)
  | cannotOpen (path : String) (cause : SystemError)
deriving Repr

namespace RunError

def message : RunError → String
  | inputNotFound path => "input not found: " ++ path
  | libraryNotFound path => "classpath entry not found: " ++ path
  | load e => e.message
  | analysis a _ => a.id ++ " construction failed"
  | cannotOpen path _ => "failed to open " ++ path

def causes : RunError → List String
  | load e => e.causes
  | analysis _ e => [e.message]
  | cannotOpen _ cause => [cause.message]
  | _ => []

end RunError

/-! ## Outcomes -/

/-- A line about the time a step took: one analysis, or all of the run. -/
inductive Timing where
  | analysis (algorithm : Algorithm) (nodes edges warnings : Nat)
  | total (classes files : Nat)
deriving DecidableEq, Repr

structure Outcome where
  stdout : String := ""
  timings : List Timing := []
  events : List Event := []
  files : FileTree
  failure : Option RunError := none

/-- The line of a timing, with the milliseconds that the clock showed. -/
def Timing.line (milliseconds : String) : Timing → String
  | analysis a nodes edges warnings =>
    "timing: algorithm=" ++ a.id ++ " ms=" ++ milliseconds ++ " nodes=" ++ toString nodes ++
      " edges=" ++ toString edges ++ " warnings=" ++ toString warnings ++ "\n"
  | total classes files =>
    "timing: total_ms=" ++ milliseconds ++ " classes=" ++ toString classes ++
      " files=" ++ toString files ++ "\n"

def Run.timing (r : Run) : Timing :=
  .analysis r.algorithm r.graph.nodes.size r.graph.edges.size r.warnings.length

def reportText (format : OutputFormat) (runs : List Run) (i : Invocation) : String :=
  (match format with
    | .json => (Report.ofRuns runs).encode
    | .sarif => sarif runs i).pretty ++ "\n"

/-- Whether an output path stands for standard output: its only part is a dash. -/
def isStandardOutput (path : String) : Bool :=
  path.toList.head? = some '-' && (splitPath path).filter (fun part => !isHere part) == ["-"]

/-- The first of the paths that leads nowhere. -/
def missingPath? (files : FileTree) (o : Options) : Option RunError :=
  if !files.hasPath o.input then some (.inputNotFound o.input)
  else (o.classpath.find? (fun path => !files.hasPath path)).map .libraryNotFound

/-- Writes a report to its place, after the timing lines of the runs. -/
def deliver (files : FileTree) (o : Options) (report : String) (timings : List Timing)
    (total : List Timing) (events : List Event) : Outcome :=
  match o.output with
  | none => { stdout := report, timings := timings ++ total, events, files }
  | some path =>
    if isStandardOutput path then { stdout := report, timings := timings ++ total, events, files }
    else
      match files.write path report.toUTF8 with
      | .ok written => { timings := timings ++ total, events, files := written }
      | .error e => { timings, events, files, failure := some (.cannotOpen path e) }

/-- One run of the command in a directory. -/
def runOptions (files : FileTree) (i : Invocation) (o : Options) : Outcome :=
  match missingPath? files o with
  | some e => { files, failure := some e }
  | none =>
    match (load files o.input o.classpath).run.run [] with
    | (.error e, events) => { events, files, failure := some (.load e) }
    | (.ok loaded, events) =>
      match runAll loaded.program o.algorithms with
      | .error (a, e) => { events, files, failure := some (.analysis a e) }
      | .ok told =>
        let timed := o.timing && !o.quiet
        deliver files o (reportText o.format told.result i)
          (if timed then told.result.map Run.timing else [])
          (if timed then [.total loaded.classCount loaded.fileCount] else [])
          (events ++ told.events)

end Devirt
