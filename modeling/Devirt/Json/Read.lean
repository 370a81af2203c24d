import Devirt.Json.Token

/-!
# Reading JSON

A stack machine over the tokens: each token moves `Reading` one step, so reading ends with the
tokens and the nesting is the height of the stack.

* `Reading.step limit` : one token, refusing more than `limit` containers inside each other;
* `read? limit text` : the value of a text;
* `readBytes? bytes` : the value of a file, which holds UTF-8 and nests at most `fileNesting` deep.

Fields of a read object stand in the order of their names, and the last of equal names counts.
-/

namespace Devirt.Json

/-- A container that waits for a value: what it holds so far, last first. -/
inductive Pending where
  | array (items : List Json)
  | object (fields : List (String × Json)) (key : String)

/-- What the tokens so far amount to, and what may come next. -/
inductive Reading where
  | value (stack : List Pending)
  | arrayStart (stack : List Pending)
  | objectStart (stack : List Pending)
  | key (stack : List Pending) (fields : List (String × Json))
  | colon (stack : List Pending) (fields : List (String × Json)) (key : String)
  | complete (stack : List Pending) (v : Json)

def beginValue (limit : Nat) (stack : List Pending) : Token → Option Reading
  | .text s => some (.complete stack (.str s))
  | .scalar v => some (.complete stack v)
  | .openArray => if stack.length < limit then some (.arrayStart stack) else none
  | .openObject => if stack.length < limit then some (.objectStart stack) else none
  | _ => none

def Reading.step (limit : Nat) : Reading → Token → Option Reading
  | .value stack, t => beginValue limit stack t
  | .arrayStart stack, .closeArray => some (.complete stack (.arr []))
  | .arrayStart stack, t => beginValue limit (.array [] :: stack) t
  | .objectStart stack, .closeObject => some (.complete stack (.obj []))
  | .objectStart stack, .text k => some (.colon stack [] k)
  | .key stack fields, .text k => some (.colon stack fields k)
  | .colon stack fields k, .colon => some (.value (.object fields k :: stack))
  | .complete (.array items :: stack) v, .comma => some (.value (.array (v :: items) :: stack))
  | .complete (.array items :: stack) v, .closeArray =>
    some (.complete stack (.arr (v :: items).reverse))
  | .complete (.object fields k :: stack) v, .comma => some (.key stack ((k, v) :: fields))
  | .complete (.object fields k :: stack) v, .closeObject =>
    some (.complete stack (ofFields ((k, v) :: fields).reverse))
  | _, _ => none

/-- The value of a text that nests at most `limit` deep. -/
def read? (limit : Nat) (text : String) : Option Json := do
  let tokens ← tokens? text
  match ← tokens.foldlM (Reading.step limit) (.value []) with
  | .complete [] v => some v
  | _ => none

def fileNesting : Nat := 127

def readBytes? (bytes : ByteArray) : Option Json := do
  read? fileNesting (← String.fromUTF8? bytes)

end Devirt.Json
