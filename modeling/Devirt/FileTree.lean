import Devirt.Text

/-!
# File trees

The files below a working directory, as data.

* `FileTree` : a file with its bytes, or a directory with named entries in any order. The entries
  with the empty name and with the name `..` are no content but ways out of the working directory:
  to the top of all files, and to the directory above;
* `joinPath`, `fileName?`, `extension?` : paths as texts; `refused?` : why a text is no path;
* `FileTree.resolve root path` : what a path leads to;
* `FileTree.write root path bytes` : the tree with a file written;
* `FileTree.listing root` : the files below a directory with their paths, sorted at every level.
-/

namespace Devirt

inductive FileTree where
  | file (bytes : ByteArray)
  | dir (entries : List (String × FileTree))
deriving Inhabited

inductive SystemError where
  | notFound
  | notDirectory
  | isDirectory
  | nameTooLong
  | nulInPath
deriving DecidableEq, Repr, Inhabited

def SystemError.message : SystemError → String
  | notFound => "No such file or directory (os error 2)"
  | notDirectory => "Not a directory (os error 20)"
  | isDirectory => "Is a directory (os error 21)"
  | nameTooLong => "File name too long (os error 36)"
  | nulInPath => "file name contained an unexpected NUL byte"

/-! ## Paths -/

def splitPath (path : String) : List String := Text.split '/' path

/-- The path of an entry of a directory. -/
def joinPath (directory name : String) : String :=
  if directory = "" ∨ directory.toList.getLast? = some '/' then directory ++ name
  else directory ++ "/" ++ name

def isAbsolute (path : String) : Bool := path.toList.head? = some '/'

/-- Whether a part of a path stays where it is. -/
def isHere (part : String) : Bool := part == "" || part == "."

/-- The last name of a path, unless the path ends in a step upwards. -/
def fileName? (path : String) : Option String :=
  match ((splitPath path).filter (fun part => !isHere part)).getLast? with
  | some ".." => none
  | other => other

/-- What follows the last point of a name, unless the name starts with it. -/
def extension? (name : String) : Option String :=
  let parts := Text.split '.' name
  match parts with
  | [] | [_] | ["", _] => none
  | _ => parts.getLast?

/-! ## What the system takes -/

def longestName : Nat := 255

def longestPath : Nat := 4095

def isPathTooLong (path : String) : Bool := longestPath < path.utf8ByteSize

def isNameTooLong (name : String) : Bool := longestName < name.utf8ByteSize

/-- Why a text is refused as a path before any file is looked at. -/
def refused? (path : String) : Option SystemError :=
  if path.toList.contains '\x00' then some .nulInPath
  else if path = "" then some .notFound
  else if isPathTooLong path then some .nameTooLong
  else none

namespace FileTree

/-! ## Looking up -/

def child? (entries : List (String × FileTree)) (name : String) : Option FileTree :=
  entries.lookup name

/-- What a way out leads to. Outside of the working directory nothing is known but what stands in
the tree, so this is an empty directory unless the tree has more. -/
def outside (entries : List (String × FileTree)) (way : String) : FileTree :=
  (child? entries way).getD (dir [])

/-- Follows the parts of a path, with the directories above the current place. Only a directory
can be gone through, even by a part that stays. -/
def follow (above : List FileTree) (here : FileTree) : List String → Except SystemError FileTree
  | [] => .ok here
  | part :: rest =>
    match here with
    | file _ => .error .notDirectory
    | dir entries =>
      if isHere part then follow above here rest
      else if part = ".." then
        match above with
        | parent :: further => follow further parent rest
        | [] => follow [] (outside entries "..") rest
      else if isNameTooLong part then .error .nameTooLong
      else
        match child? entries part with
        | none => .error .notFound
        | some next => follow (here :: above) next rest

/-- Where a path starts: at the top of all files if it begins with a slash. -/
def start (root : FileTree) (path : String) : FileTree :=
  match root with
  | dir entries => if isAbsolute path then outside entries "" else root
  | file _ => root

def resolve (root : FileTree) (path : String) : Except SystemError FileTree :=
  match refused? path with
  | some e => .error e
  | none => follow [] (root.start path) (splitPath path)

def hasPath (root : FileTree) (path : String) : Bool :=
  match root.resolve path with
  | .ok _ => true
  | .error _ => false

def read (root : FileTree) (path : String) : Except SystemError ByteArray :=
  match root.resolve path with
  | .ok (file bytes) => .ok bytes
  | .ok (dir _) => .error .isDirectory
  | .error e => .error e

/-! ## Writing -/

/-- The parts of a path without those that stay, and with steps upwards taken back. -/
def plainParts (path : String) : List String :=
  (splitPath path).foldl
    (fun parts part =>
      if isHere part then parts
      else if part = ".." then
        match parts.getLast? with
        | none | some ".." => parts ++ [".."]
        | some "" => parts
        | some _ => parts.dropLast
      else parts ++ [part])
    (if isAbsolute path then [""] else [])

def setEntry (name : String) (tree : FileTree) :
    List (String × FileTree) → List (String × FileTree)
  | [] => [(name, tree)]
  | (n, t) :: rest => if n = name then (n, tree) :: rest else (n, t) :: setEntry name tree rest

/-- The tree with something put at a place; directories on the way are made. -/
def put (tree : FileTree) : List String → FileTree → FileTree
  | [], _ => tree
  | part :: rest, here =>
    match here with
    | file bytes => file bytes
    | dir entries =>
      dir (setEntry part (put tree rest ((child? entries part).getD (dir []))) entries)

/-- The last part of a path, before the slashes at its end, and the parts before it. -/
def lastPart? (path : String) : Option (List String × String) :=
  match (splitPath path).reverse.dropWhile (· == "") with
  | [] => none
  | last :: before => some (before.reverse, last)

/-- Why no file of a name can be written in a directory. A name with a slash behind it is one of a
directory, whatever stands there. -/
def unwritable? (entries : List (String × FileTree)) (path name : String) : Option SystemError :=
  if name = "." ∨ name = ".." ∨ path.toList.getLast? = some '/' then some .isDirectory
  else if isNameTooLong name then some .nameTooLong
  else
    match child? entries name with
    | some (dir _) => some .isDirectory
    | _ => none

/-- The tree with a file written. The file's directory has to exist, and a directory can neither be
overwritten nor be made. -/
def write (root : FileTree) (path : String) (bytes : ByteArray) : Except SystemError FileTree :=
  match refused? path, lastPart? path with
  | some e, _ => .error e
  | none, none => .error .isDirectory
  | none, some (before, name) =>
    match follow [] (root.start path) before with
    | .error e => .error e
    | .ok (file _) => .error .notDirectory
    | .ok (dir entries) =>
      match unwritable? entries path name with
      | some e => .error e
      | none => .ok (put (file bytes) (plainParts path) root)

/-! ## Listing -/

/-- Whether an entry is no content of a directory. -/
def isWayOut (name : String) : Bool := name == "" || name == ".."

def nameLE {α : Type} (a b : String × α) : Bool := a.1 ≤ b.1

mutual

/-- The files at or below a path with what reading them gives: of a directory, those of its entries,
in the order of their names. What has a path that is too long counts as a file that cannot be
read. -/
def listing (path : String) : FileTree → List (String × Except SystemError ByteArray)
  | file bytes => [(path, if isPathTooLong path then .error .nameTooLong else .ok bytes)]
  | dir entries =>
    if isPathTooLong path then [(path, .error .nameTooLong)]
    else ((entryListings path entries).mergeSort nameLE).flatMap (·.2)

/-- The files below each entry of a directory. -/
def entryListings (path : String) :
    List (String × FileTree) → List (String × List (String × Except SystemError ByteArray))
  | [] => []
  | (name, tree) :: rest =>
    if isWayOut name then entryListings path rest
    else (name, listing (joinPath path name) tree) :: entryListings path rest

end

end FileTree

end Devirt
