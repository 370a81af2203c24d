import Devirt.Analysis.Algorithms

/-!
# The command line

* `Options` : what a run is asked to do;
* `Stop` : why a command line asks for no run: it is wrong, or wants the help or version text;
* `Parsing` : what the arguments so far amount to. An option whose value is a word of its own is
  settled only when the next option comes, so an unknown word after it is reported first;
* `Options.parse` : the options of a command line, read from left to right;
* `helpText`, `versionText` : the texts.
-/

namespace Devirt

inductive OutputFormat where
  | json
  | sarif
deriving DecidableEq, Repr, Inhabited

def OutputFormat.ofName? : String → Option OutputFormat
  | "json" => some json
  | "sarif" => some sarif
  | _ => none

structure Options where
  input : String
  classpath : List String := []
  algorithms : List Algorithm := [.cha, .rta, .vta]
  format : OutputFormat := .json
  output : Option String := none
  quiet : Bool := false
  timing : Bool := false
deriving DecidableEq, Repr

/-- Why a command line asks for no run. -/
inductive Stop where
  | missingInput
  | unknownArgument
  | invalidValue
  | repeated
  | unwantedValue
  | help
  | version
deriving DecidableEq, Repr

/-! ## Arguments -/

/-- An option with a value. -/
inductive Setting where
  | input
  | classpath
  | algorithm
  | format
  | output
deriving DecidableEq, Repr

/-- An option without a value. -/
inductive Switch where
  | quiet
  | timing
  | help
  | version
deriving DecidableEq, Repr

def Setting.ofName? : String → Option Setting
  | "input" => some input
  | "classpath" => some classpath
  | "algorithm" => some algorithm
  | "format" => some format
  | "output" => some output
  | _ => none

def Switch.ofName? : String → Option Switch
  | "quiet" => some quiet
  | "timing" => some timing
  | "help" => some help
  | "version" => some version
  | _ => none

def Switch.ofLetter? : Char → Option Switch
  | 'h' => some help
  | 'V' => some version
  | _ => none

/-- What the arguments so far amount to. -/
structure Parsing where
  input : Option String := none
  classpath : List String := []
  algorithms : Option (List Algorithm) := none
  format : Option OutputFormat := none
  output : Option String := none
  quiet : Bool := false
  timing : Bool := false
  pending : Option (Setting × Option String) := none
  ended : Bool := false

namespace Parsing

/-- A path has at least one character. -/
def path (value : String) : Except Stop String :=
  if value = "" then .error .invalidValue else .ok value

def choice {α : Type} : Option α → Except Stop α
  | some a => .ok a
  | none => .error .invalidValue

/-- Sets an option; only library paths may be given more than once. -/
def set (s : Parsing) (setting : Setting) (value : String) : Except Stop Parsing :=
  match setting with
  | .input =>
    if s.input.isSome then .error .repeated else do return { s with input := ← path value }
  | .classpath => do return { s with classpath := s.classpath ++ [← path value] }
  | .algorithm =>
    if s.algorithms.isSome then .error .repeated
    else do return { s with algorithms := ← choice (Algorithm.chosen? value) }
  | .format =>
    if s.format.isSome then .error .repeated
    else do return { s with format := ← choice (OutputFormat.ofName? value) }
  | .output =>
    if s.output.isSome then .error .repeated else do return { s with output := ← path value }

/-- Settles the option that waits, which must have got its value. -/
def settle (s : Parsing) : Except Stop Parsing :=
  match s.pending with
  | none => .ok s
  | some (_, none) => .error .invalidValue
  | some (setting, some value) => set { s with pending := none } setting value

def switch (s : Parsing) : Switch → Except Stop Parsing
  | .quiet => if s.quiet then .error .repeated else .ok { s with quiet := true }
  | .timing => if s.timing then .error .repeated else .ok { s with timing := true }
  | .help => .error .help
  | .version => .error .version

/-- A long option, with the value after its equals sign if there is one. -/
def long (s : Parsing) (name : String) (value : Option String) : Except Stop Parsing :=
  match Setting.ofName? name, Switch.ofName? name, value with
  | some setting, _, some v => do (← s.settle).set setting v
  | some setting, _, none => do return { (← s.settle) with pending := some (setting, none) }
  | none, some _, some _ => .error .unwantedValue
  | none, some w, none => do (← s.settle).switch w
  | none, none, _ => .error .unknownArgument

/-- The name and value of a long option without its dashes. -/
def splitOption (cs : List Char) : String × Option String :=
  let name := String.ofList (cs.takeWhile (· ≠ '='))
  match cs.dropWhile (· ≠ '=') with
  | [] => (name, none)
  | _ :: value => (name, some (String.ofList value))

def step (s : Parsing) (argument : String) : Except Stop Parsing :=
  if s.ended then .error .unknownArgument
  else
    match argument.toList with
    | ['-', '-'] => .ok { s with ended := true }
    | '-' :: '-' :: cs => s.long (splitOption cs).1 (splitOption cs).2
    | '-' :: c :: _ =>
      match Switch.ofLetter? c with
      | some w => do (← s.settle).switch w
      | none => .error .unknownArgument
    | _ =>
      match s.pending with
      | some (setting, none) => .ok { s with pending := some (setting, some argument) }
      | _ => .error .unknownArgument

/-- The options once all arguments are read. -/
def finish (s : Parsing) : Except Stop Options :=
  match s.input with
  | none => .error .missingInput
  | some input =>
    .ok { input, classpath := s.classpath, algorithms := s.algorithms.getD [.cha, .rta, .vta],
          format := s.format.getD .json, output := s.output, quiet := s.quiet, timing := s.timing }

end Parsing

def Options.parse (arguments : List String) : Except Stop Options := do
  let s ← arguments.foldlM Parsing.step {}
  (← s.settle).finish

/-! ## Texts -/

def versionText : String := "callgraph 0.1.0\n"

def helpText : String :=
  "Static call graphs (CHA, RTA, VTA) for JVM program snapshots.\n\n" ++
  "Usage: callgraph [OPTIONS] --input <PATH>\n\n" ++
  "Options:\n" ++
  "      --input <PATH>           Snapshot file or directory of snapshot files to analyze\n" ++
  "      --classpath <PATH>       Library snapshots; their classes resolve dispatch but " ++
    "seed no entry points\n" ++
  "      --algorithm <ALGORITHM>  [default: all] [possible values: cha, rta, vta, all]\n" ++
  "      --format <FORMAT>        [default: json] [possible values: json, sarif]\n" ++
  "      --output <PATH>          \n" ++
  "      --quiet                  \n" ++
  "      --timing                 \n" ++
  "  -h, --help                   Print help\n" ++
  "  -V, --version                Print version\n"

end Devirt
