import Devirt.Text.Pattern.Bracket
import Devirt.Text.Pattern.Opening

/-!
# Well-formed patterns

`isPattern text` tells whether a text is a regular expression that a matcher without memory takes.
Nothing is matched here, so the check only follows the text:

* a group is closed, and no two groups have the same name;
* a bracket is closed, and its ranges rise;
* `*`, `+` and `?` stand behind something;
* a backslash stands before a character that it gives a meaning or takes one from;
* where bytes are matched, nothing takes a byte out of a character;
* the parts do not nest too deep;
* a brace opens a count. Its closing brace ends the place where a pattern can stand, so a brace
  outside of a bracket is always left open.
-/

namespace Devirt.Text

namespace Pattern

/-- What has been read of a group that is not closed yet, or of the whole pattern. -/
structure OpenGroup where
  /-- The mode behind the group. -/
  behind : Mode
  /-- The depths of the branches before the last bar. -/
  branches : List Nat
  /-- The depths of the items behind it, the last one first. A setting is `none`: it cannot be
  repeated. -/
  items : List (Option Nat)
deriving DecidableEq, Repr

/-- The depth of the branch behind the last bar. -/
def OpenGroup.branch (g : OpenGroup) : Nat := depthBeside (g.items.map (·.getD 0))

def OpenGroup.depth (g : OpenGroup) : Nat := depthBeside (g.branch :: g.branches)

/-- What has been read of a pattern: the mode, the names of groups, the innermost open group and
those around it. -/
structure Reading where
  mode : Mode
  names : List String
  inner : OpenGroup
  outer : List OpenGroup
deriving DecidableEq, Repr

namespace Reading

def start : Reading := ⟨.start, [], ⟨.start, [], []⟩, []⟩

def withItems (r : Reading) (items : List (Option Nat)) : Reading :=
  { r with inner := { r.inner with items } }

def add (r : Reading) (item : Option Nat) : Reading := r.withItems (item :: r.inner.items)

/-- Adds what opens with a parenthesis. -/
def opens (r : Reading) : Opening → Reading
  | .setting mode => { r with mode }.add none
  | .group mode name =>
    ⟨mode, name.toList ++ r.names, ⟨r.mode, [], []⟩, r.inner :: r.outer⟩

/-- Closes the innermost group, which becomes an item of the one around it. -/
def closes? (r : Reading) : Option Reading :=
  match r.outer with
  | [] => none
  | o :: outer =>
    some ({ r with mode := r.inner.behind, inner := o, outer }.add (some (r.inner.depth + 1)))

def bar (r : Reading) : Reading :=
  { r with inner := ⟨r.inner.behind, r.inner.branch :: r.inner.branches, []⟩ }

/-- Repeats the last item. -/
def repeats? (r : Reading) : Option Reading :=
  match r.inner.items with
  | some d :: items => some (r.withItems (some (d + 1) :: items))
  | _ => none

/-- Reads what begins with a character: what has been read then, and the rest. A question mark
directly behind a sign of repetition belongs to it. -/
def step? (r : Reading) (c : Char) (rest : List Char) : Option (Reading × List Char) :=
  match c with
  | '(' => (opening? r.mode r.names rest).map (fun (opening, rest) => (r.opens opening, rest))
  | ')' => r.closes?.map (fun r => (r, rest))
  | '|' => some (r.bar, rest)
  | '*' | '+' | '?' =>
    r.repeats?.map (fun r => (r, if rest.head? = some '?' then rest.drop 1 else rest))
  | '\x7b' => none
  | '[' => (bracket? r.mode rest).map (fun (depth, rest) => (r.add (some depth), rest))
  | '\\' => (escape? r.mode rest).map (fun (_, rest) => (r.add (some 0), rest))
  | '.' => if r.mode.unicode then some (r.add (some 0), rest) else none
  | _ => some (r.add (some 0), rest)

/-- The depth of a pattern by the end of the text. Each step takes a character, so as much fuel is
enough. -/
def depth? (r : Reading) (fuel : Nat) (cs : List Char) : Option Nat :=
  match fuel, r.mode.skip cs with
  | _, [] => if r.outer = [] then some r.inner.depth else none
  | 0, _ => none
  | fuel + 1, c :: rest =>
    match r.step? c rest with
    | some (r, rest) => r.depth? fuel rest
    | none => none

end Reading

end Pattern

def isPattern (text : String) : Bool :=
  match Pattern.Reading.start.depth? text.toList.length text.toList with
  | some depth => depth ≤ Pattern.depthLimit
  | none => false

end Devirt.Text
