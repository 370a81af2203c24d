import Devirt.Event
import Devirt.FileTree
import Devirt.Json.Read
import Devirt.Program
import Devirt.Snapshot

/-!
# Loading programs

Snapshot files become one program: the input's classes and entry points, and the classes of
libraries.

* `LoadError` : why a program cannot be loaded;
* `readSnapshot`, `loadFile` : the snapshot in a file; `loadPath` : of one file or of all files
  below a directory;
* `load root input classpath` : the program. Entry points come from the input only, and if it
  names none, from its main methods. Library paths are taken in order of their texts.
-/

namespace Devirt

/-! ## Failures -/

inductive LoadError where
  | unsupported (path : String)
  | unreadable (path : String) (cause : SystemError)
  | unparsable (path : String)
  | invalid (path : String) (violations : List Violation)
  | undecodable (path : String) (cause : DecodeError)
deriving Repr

namespace LoadError

def message : LoadError → String
  | unsupported path => "unsupported input file: " ++ path
  | unreadable path _ => "failed to read " ++ path
  | unparsable path => "failed to parse " ++ path
  | invalid path violations =>
    "invalid snapshot " ++ path ++ ": " ++ "; ".intercalate (violations.map Violation.message)
  | undecodable path _ => "failed to decode " ++ path

def causes : LoadError → List String
  | unreadable _ cause => [cause.message]
  | undecodable _ cause => [cause.message]
  | _ => []

end LoadError

/-- Steps that can fail and tell events; what was told before a failure stays told. -/
abbrev Loading (α : Type) := ExceptT LoadError (StateM (List Event)) α

def Loading.tell (events : List Event) : Loading Unit := modify (· ++ events)

/-! ## Files -/

def isSnapshotPath (path : String) : Bool :=
  ((fileName? path).bind extension?) == some "json"

def readSnapshot (path : String) (bytes : ByteArray) : Except LoadError Snapshot :=
  match Json.readBytes? bytes with
  | none => .error (.unparsable path)
  | some v =>
    match Snapshot.schema [] v with
    | [] =>
      match Snapshot.decode v with
      | .ok s => .ok s
      | .error e => .error (.undecodable path e)
    | violations => .error (.invalid path violations)

/-- The snapshot of what reading a file gave. -/
def loadFile (path : String) : Except SystemError ByteArray → Except LoadError Snapshot
  | .ok bytes => readSnapshot path bytes
  | .error e => .error (.unreadable path e)

/-- The snapshots of a file, or of all snapshot files below a directory. -/
def loadPath (root : FileTree) (path : String) : Loading (List Snapshot) :=
  match root.resolve path with
  | .ok (.dir entries) => do
    let files := FileTree.listing path (.dir entries)
    Loading.tell ((files.filter (fun f => !isSnapshotPath f.1)).map (fun f => .fileSkipped f.1))
    (files.filter (fun f => isSnapshotPath f.1)).mapM (fun f => loadFile f.1 f.2)
  | _ =>
    if !isSnapshotPath path then throw (.unsupported path)
    else do return [← loadFile path (root.read path)]

/-! ## Programs -/

/-- A loaded program, with the number of classes and files it was loaded from. -/
structure Loaded where
  program : Program
  classCount : Nat
  fileCount : Nat

/-- The entry points of input snapshots: those they name, or else their main methods. -/
def entryPointsOf (inputs : List Snapshot) : List MethodRef :=
  match inputs.flatMap (·.entryPoints) with
  | [] => mainMethods (inputs.flatMap (·.classes))
  | named => named

def Loaded.ofSnapshots (inputs libraries : List Snapshot) : Loaded :=
  let classes := (inputs ++ libraries).flatMap (·.classes)
  ⟨.new classes (entryPointsOf inputs), classes.length, inputs.length + libraries.length⟩

def loadedEvents (inputs libraries : List Snapshot) : List Event :=
  let classes := (inputs ++ libraries).flatMap (·.classes)
  .snapshotsLoaded (inputs.length + libraries.length) classes.length
      (entryPointsOf inputs).length ::
    (repeatedNames [] classes).map .duplicateClass

def load (root : FileTree) (input : String) (classpath : List String) : Loading Loaded := do
  let inputs ← loadPath root input
  let libraries ← (classpath.mergeSort (fun a b => a ≤ b)).mapM (loadPath root)
  Loading.tell (loadedEvents inputs libraries.flatten)
  return .ofSnapshots inputs libraries.flatten

end Devirt
