import Devirt.CommandLine.Exit

/-!
# The program

Reads the files that the arguments name into a tree, runs the command on it, and puts out what the
command leaves behind. Everything that is decided is decided by `runOptions`.
-/

namespace Devirt

def logVariable : String := "CALLGRAPH_LOG"

/-- What stands at a path: a file, or a directory with all that is below it. -/
partial def readTree (path : String) : IO (Option FileTree) := do
  let some place ← try some <$> IO.FS.realPath path catch _ => pure none | return none
  if ← place.isDir then
    let mut entries := []
    for e in ← place.readDir do
      if let some tree ← readTree (joinPath path e.fileName) then
        entries := (e.fileName, tree) :: entries
    return some (.dir entries)
  else return some (.file (← IO.FS.readBinFile path))

/-- The tree with what stands at a path. -/
def addPath (root : FileTree) (path : String) : IO FileTree := do
  match ← readTree path with
  | some tree => return FileTree.put tree (FileTree.plainParts path) root
  | none => return root

/-- The paths that lead through the places on a path, and the path itself. -/
def waypoints (path : String) : List String :=
  let parts := splitPath path
  (List.range parts.length).map (fun i => "/".intercalate (parts.take (i + 1)))

/-- The tree with the places on a path that it has not yet: a directory as an empty one, and a file
without its bytes. They decide whether the path can be gone and whether a file can be written. -/
def addWay (root : FileTree) (path : String) : IO FileTree := do
  if (refused? path).isSome then return root
  let mut root := root
  for p in waypoints path do
    unless FileTree.plainParts p = [] || root.hasPath p do
      if let some place ← try some <$> IO.FS.realPath p catch _ => pure none then
        let tree := if ← place.isDir then .dir [] else .file .empty
        root := FileTree.put tree (FileTree.plainParts p) root
  return root

/-- The files that a run can come to see. The working directory itself is read before what else
stands in the tree. -/
def readFiles (o : Options) : IO FileTree := do
  let shorter (a b : String) : Bool :=
    (FileTree.plainParts a).length ≤ (FileTree.plainParts b).length
  let read := o.input :: o.classpath
  let root ← (read.mergeSort shorter).foldlM addPath (.dir [])
  (read ++ o.output.toList).foldlM addWay root

/-- Writes the output file of a run that did not fail. -/
def writeOutput (o : Options) (outcome : Outcome) : IO Unit := do
  if let (some path, none) := (o.output, outcome.failure) then
    unless isStandardOutput path do
      if let .ok bytes := outcome.files.read path then
        IO.FS.writeBinFile path bytes

/-- Puts out the texts of an end and gives its code. -/
def finish (e : Exit) : IO UInt32 := do
  (← IO.getStdout).putStr e.stdout
  (← IO.getStderr).putStr (e.stderr.getD "Usage: callgraph [OPTIONS] --input <PATH>\n")
  return e.code.toUInt32

end Devirt

open Devirt in
def main (arguments : List String) : IO UInt32 := do
  match Options.parse arguments with
  | .error stop => finish (stop.exit (.dir []))
  | .ok o =>
    let started ← IO.monoMsNow
    let outcome := runOptions (← readFiles o) ⟨toolName :: arguments⟩ o
    writeOutput o outcome
    let milliseconds := (← IO.monoMsNow) - started
    finish (outcome.exit (toString milliseconds) (logFilter (← IO.getEnv logVariable) o.quiet))
