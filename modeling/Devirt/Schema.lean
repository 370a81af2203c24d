import Devirt.Json.Print

/-!
# Schemas

A schema is a check that lists what is wrong with a value and where. Checks that speak of one type
of values pass all others.

* `Violation` : a place in a document and the problem there, with its wording;
* `Schema.types`, `Schema.enum`, `Schema.items`, `Schema.minLength`, `Schema.properties`,
  `Schema.required` : one check each;
* `Schema.all` : checks one after the other.
-/

namespace Devirt

/-- The types that a schema can ask for. -/
inductive JsonType where
  | array
  | boolean
  | null
  | object
  | string
deriving DecidableEq, Repr

namespace JsonType

def name : JsonType → String
  | array => "array"
  | boolean => "boolean"
  | null => "null"
  | object => "object"
  | string => "string"

def holds : JsonType → Json → Bool
  | array, .arr _ => true
  | boolean, .bool _ => true
  | null, .null => true
  | object, .obj _ => true
  | string, .str _ => true
  | _, _ => false

end JsonType

/-! ## Violations -/

inductive Problem where
  | wrongType (found : Json) (types : List JsonType)
  | notOneOf (found : Json) (options : List String)
  | tooShort (found : String) (least : Nat)
  | missing (name : String)
deriving Repr

def Problem.message : Problem → String
  | wrongType found types =>
    found.compact ++ (if types.length = 1 then " is not of type " else " is not of types ") ++
      ", ".intercalate (types.map (fun t => Json.quote t.name))
  | notOneOf found options =>
    found.compact ++ " is not one of " ++ (Json.arr (options.map .str)).compact
  | tooShort found least =>
    Json.quote found ++ " is shorter than " ++ toString least ++
      (if least = 1 then " character" else " characters")
  | missing name => Json.quote name ++ " is a required property"

/-- A problem and the steps that lead to it from the root. -/
structure Violation where
  path : List String
  problem : Problem
deriving Repr

/-- A violation as a text: the path, each step after a slash, and the problem. -/
def Violation.message (v : Violation) : String :=
  String.join (v.path.map ("/" ++ ·)) ++ ": " ++ v.problem.message

/-! ## Checks -/

/-- Lists the violations of a value at a path. -/
abbrev Schema := List String → Json → List Violation

namespace Schema

/-- The value has one of the types, which are named in alphabetical order. -/
def types (ts : List JsonType) : Schema := fun path v =>
  if ts.any (·.holds v) then [] else [⟨path, .wrongType v ts⟩]

def enum (options : List String) : Schema := fun path v =>
  match v with
  | .str s => if s ∈ options then [] else [⟨path, .notOneOf v options⟩]
  | _ => [⟨path, .notOneOf v options⟩]

def items (item : Schema) : Schema := fun path v =>
  match v with
  | .arr vs => (vs.mapIdx (fun i x => item (path ++ [toString i]) x)).flatten
  | _ => []

def minLength (least : Nat) : Schema := fun path v =>
  match v with
  | .str s => if s.length < least then [⟨path, .tooShort s least⟩] else []
  | _ => []

/-- Fields of an object pass if they are present. -/
def properties (fields : List (String × Schema)) : Schema := fun path v =>
  fields.flatMap (fun (name, check) =>
    match v.get? name with
    | some x => check (path ++ [name]) x
    | none => [])

def required (names : List String) : Schema := fun path v =>
  match v with
  | .obj fields =>
    (names.filter (fun name => (fields.lookup name).isNone)).map (fun name => ⟨path, .missing name⟩)
  | _ => []

def all (checks : List Schema) : Schema := fun path v => checks.flatMap (fun check => check path v)

def accepts (s : Schema) (v : Json) : Bool := (s [] v).isEmpty

end Schema

end Devirt
