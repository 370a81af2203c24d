import Devirt.Json.Shortest
import Devirt.Json

/-!
# Printing JSON

* `quote s` : a text in quotes, control characters escaped and all else as it is;
* `compact v` : one line without blanks;
* `pretty v` : two blanks per level, one line per item, empty containers closed at once.

Both keep the order of an object's fields.
-/

namespace Devirt.Json

/-- The digits of a code below 256 in base sixteen. -/
def hexPair (n : Nat) : String :=
  String.ofList [Nat.digitChar (n / 16), Nat.digitChar (n % 16)]

def quoteChar (c : Char) : String :=
  match c with
  | '"' => "\\\""
  | '\\' => "\\\\"
  | '\x08' => "\\b"
  | '\t' => "\\t"
  | '\n' => "\\n"
  | '\x0c' => "\\f"
  | '\r' => "\\r"
  | c => if c.toNat < 0x20 then "\\u00" ++ hexPair c.toNat else c.toString

def quote (s : String) : String :=
  "\"" ++ s.toList.foldl (fun out c => out ++ quoteChar c) "" ++ "\""

/-! ## One line -/

mutual

/-- A value on one line. -/
def compact : Json → String
  | null => "null"
  | bool b => if b then "true" else "false"
  | int i => toString i
  | float x => x.text
  | str s => quote s
  | arr items => "[" ++ ",".intercalate (compactItems items) ++ "]"
  | obj fields => "\x7b" ++ ",".intercalate (compactFields fields) ++ "\x7d"

def compactItems : List Json → List String
  | [] => []
  | v :: rest => compact v :: compactItems rest

def compactFields : List (String × Json) → List String
  | [] => []
  | (k, v) :: rest => (quote k ++ ":" ++ compact v) :: compactFields rest

end

/-! ## Indented -/

/-- A line break and the blanks of a level. -/
def newline (level : Nat) : String := "\n".pushn ' ' (2 * level)

/-- A container's items between its brackets, one to a line. -/
def block (level : Nat) (opening closing : String) (items : List String) : String :=
  if items.isEmpty then opening ++ closing
  else
    opening ++ newline (level + 1) ++ ("," ++ newline (level + 1)).intercalate items
      ++ newline level ++ closing

mutual

/-- A value whose first line stands at an indentation level. -/
def indented (level : Nat) : Json → String
  | arr items => block level "[" "]" (indentedItems (level + 1) items)
  | obj fields => block level "\x7b" "\x7d" (indentedFields (level + 1) fields)
  | null => "null"
  | bool b => if b then "true" else "false"
  | int i => toString i
  | float x => x.text
  | str s => quote s

def indentedItems (level : Nat) : List Json → List String
  | [] => []
  | v :: rest => indented level v :: indentedItems level rest

def indentedFields (level : Nat) : List (String × Json) → List String
  | [] => []
  | (k, v) :: rest => (quote k ++ ": " ++ indented level v) :: indentedFields level rest

end

/-- A value on lines of its own, without a final line break. -/
def pretty (v : Json) : String := indented 0 v

end Devirt.Json
