import Devirt.Json.Double

/-!
# JSON values

* `Json` : a value; an object is a list of fields, whose order a printer keeps;
* `Json.get?` : the value of an object's field;
* `Json.setField` : adds a field to fields that are sorted by name, replacing one of that name.
-/

namespace Devirt

/-- A JSON value. Numbers are integers or doubles, as their spelling decides. -/
inductive Json where
  | null
  | bool (b : Bool)
  | int (i : Int)
  | float (x : Double)
  | str (s : String)
  | arr (items : List Json)
  | obj (fields : List (String × Json))
deriving Repr, Inhabited

namespace Json

/-- The value of a field; `none` if it is absent or the value is no object. -/
def get? (key : String) : Json → Option Json
  | obj fields => fields.lookup key
  | _ => none

/-- The fields with `key` set to `value`, kept in the order of their names. -/
def setField (key : String) (value : Json) : List (String × Json) → List (String × Json)
  | [] => [(key, value)]
  | (k, v) :: rest =>
    if key < k then (key, value) :: (k, v) :: rest
    else if key = k then (key, value) :: rest
    else (k, v) :: setField key value rest

/-- The object with these fields in the order of their names; of equal names the last counts. -/
def ofFields (fields : List (String × Json)) : Json :=
  obj (fields.foldl (fun sorted (k, v) => setField k v sorted) [])

end Json

end Devirt
