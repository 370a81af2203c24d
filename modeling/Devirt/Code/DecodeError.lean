import Devirt.Json.Print
import Devirt.Text.Shown

/-!
# What can be wrong with a value that is decoded

`DecodeError` gives the cause, `DecodeError.message` its wording.
-/

namespace Devirt

/-- Where a value stands: in the document itself, or inside a statement, an expression or a
value, whose parts are read after their tag. -/
inductive Place where
  | outer
  | inner
deriving DecidableEq, Repr

/-- A record as messages name it, with its number of fields. -/
structure Shape where
  title : String
  size : Nat
deriving DecidableEq, Repr

inductive DecodeError where
  | missingField (name : String)
  | wrongType (found : Json) (expected : String)
  | negativeIndex (i : Int)
  | unknownVariant (name : String) (known : List String)
  | variantIndex (i : Int) (count : Nat)
  | notOneKey
  | tooShort (length : Nat) (shape : Shape)
  | tooLong (length used : Nat) (place : Place)
deriving Repr, Inhabited

def Json.described : Json → String
  | .null => "null"
  | .bool b => "boolean `" ++ (if b then "true" else "false") ++ "`"
  | .int i => "integer `" ++ toString i ++ "`"
  | .float x => "floating point `" ++ x.text ++ "`"
  | .str s => "string " ++ Text.quoted s
  | .arr _ => "sequence"
  | .obj _ => "map"

def elements (n : Nat) : String :=
  toString n ++ (if n = 1 then " element" else " elements")

def backquoted (s : String) : String := "`" ++ s ++ "`"

def DecodeError.message : DecodeError → String
  | missingField name => "missing field " ++ backquoted name
  | wrongType found expected => "invalid type: " ++ found.described ++ ", expected " ++ expected
  | negativeIndex i => "invalid value: integer " ++ backquoted (toString i) ++ ", expected usize"
  | unknownVariant name known =>
    "unknown variant " ++ backquoted name ++ ", expected one of " ++
      ", ".intercalate (known.map backquoted)
  | variantIndex i count =>
    "invalid value: integer " ++ backquoted (toString i) ++ ", expected variant index 0 <= i < " ++
      toString count
  | notOneKey => "invalid value: map, expected map with a single key"
  | tooShort length shape =>
    "invalid length " ++ toString length ++ ", expected " ++ shape.title ++ " with " ++
      elements shape.size
  | tooLong length _ .outer =>
    "invalid length " ++ toString length ++ ", expected fewer elements in array"
  | tooLong length used .inner =>
    "invalid length " ++ toString length ++ ", expected " ++ elements used ++ " in sequence"

end Devirt
