import Devirt.Code.Decode
import Devirt.Schema

/-!
# Snapshots

A snapshot file holds classes, and possibly entry points.

* `Snapshot.schema` : what a file has to look like before it is decoded;
* `Snapshot.decode` : the classes and entry points of a document.
-/

namespace Devirt

structure Snapshot where
  classes : List Class := []
  entryPoints : List MethodRef := []
deriving DecidableEq, Repr

namespace Snapshot

open Schema

/-! ## The schema -/

def textSchema (least : Nat) : Schema := all [minLength least, types [.string]]

/-- A statement has a known tag; the rest is left to decoding. -/
def statementSchema : Schema :=
  all [properties [("stmt", enum ["assign", "invoke", "return", "other"])],
    required ["stmt"], types [.object]]

def methodSchema : Schema :=
  all [properties [("access", types [.object]),
      ("body", all [items statementSchema, types [.array, .null]]),
      ("descriptor", textSchema 2), ("name", textSchema 1)],
    required ["name", "descriptor"], types [.object]]

def classSchema : Schema :=
  all [properties [("interfaces", all [items (types [.string]), types [.array]]),
      ("is_abstract", types [.boolean]), ("is_interface", types [.boolean]),
      ("methods", all [items methodSchema, types [.array]]),
      ("name", textSchema 1), ("super_name", types [.null, .string])],
    required ["name"], types [.object]]

def methodRefSchema : Schema :=
  all [properties [("class", textSchema 1), ("descriptor", textSchema 2), ("name", textSchema 1)],
    required ["class", "name", "descriptor"], types [.object]]

def schema : Schema :=
  all [properties [("classes", all [items classSchema, types [.array]]),
      ("entry_points", all [items methodRefSchema, types [.array]])],
    required ["classes"], types [.object]]

/-! ## Decoding -/

/-- The classes and entry points of a document; both may be absent. -/
def decode : Json → Decode Snapshot :=
  record "Snapshot" .outer
    (fun fields => do
      let classes ← field? "classes" (decodeList (Class.decode .outer)) fields
      let entryPoints ← field? "entry_points" (decodeList (MethodRef.decode .outer)) fields
      return ⟨classes.getD [], entryPoints.getD []⟩)
    (fun row => do
      let (classes, row) ← row.nextD [] (decodeList (Class.decode .outer))
      let (entryPoints, row) ← row.nextD [] (decodeList (MethodRef.decode .outer))
      return (⟨classes, entryPoints⟩, row))

end Snapshot

end Devirt
