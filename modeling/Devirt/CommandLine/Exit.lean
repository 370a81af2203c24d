import Devirt.CommandLine.Log
import Devirt.CommandLine.Run

/-!
# The command from arguments to exit code

* `Exit` : exit code and the texts on both outputs;
* `Stop.exit`, `Outcome.exit` : the end of a command line without a run, and of a run;
* `runCommand milliseconds files arguments log` : the command with its arguments, in a directory,
  with the log setting of its surroundings.
-/

namespace Devirt

/-- What the command leaves behind. The text on standard error is absent when only the usage could
stand there. -/
structure Exit where
  code : Nat
  stdout : String
  stderr : Option String
  files : FileTree

/-- The log shown without a setting: warnings, or only errors if the run shall be quiet. -/
def defaultFilter (quiet : Bool) : Filter := [⟨"", none, some (if quiet then .error else .warn)⟩]

/-- A text as a paragraph whose lines are all indented. -/
def indentedText (text : String) : String :=
  String.join ((Text.split '\n' text).map (fun line => "    " ++ line ++ "\n"))

def failureText (e : RunError) : String :=
  "Error: " ++ e.message ++ "\n" ++
    (match e.causes with
      | [] => ""
      | causes => "\nCaused by:\n" ++ String.join (causes.map indentedText))

/-- The log that a setting asks for; a setting that cannot be read counts as none. -/
def logFilter (log : Option String) (quiet : Bool) : Filter :=
  (log.bind Filter.parse?).getD (defaultFilter quiet)

def Stop.exit (files : FileTree) : Stop → Exit
  | .help => ⟨0, helpText, some "", files⟩
  | .version => ⟨0, versionText, some "", files⟩
  | _ => ⟨2, "", none, files⟩

/-- The end of a run: the log, the timing lines with the given milliseconds, and the failure. -/
def Outcome.exit (milliseconds : String) (filter : Filter) (outcome : Outcome) : Exit :=
  let lines := (outcome.events.filter filter.shows).map Event.line
  let timings := outcome.timings.map (Timing.line milliseconds)
  let failure := (outcome.failure.map failureText).toList
  ⟨if outcome.failure.isSome then 1 else 0, outcome.stdout,
    some (String.join (lines ++ timings ++ failure)), outcome.files⟩

def runCommand (milliseconds : String) (files : FileTree) (arguments : List String)
    (log : Option String) : Exit :=
  match Options.parse arguments with
  | .error stop => stop.exit files
  | .ok o =>
    (runOptions files ⟨toolName :: arguments⟩ o).exit milliseconds (logFilter log o.quiet)

end Devirt
