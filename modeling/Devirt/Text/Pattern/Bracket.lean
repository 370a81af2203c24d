import Devirt.Text.Pattern.Escape

/-!
# Sets of characters in brackets

A bracket holds characters, ranges, sets by name and further brackets. Two signs in a row, `&&`,
`--` or `~~`, stand between two sets of which one set is made.

* `namedSet?` : a set by name, such as `[:alpha:]`;
* `member?` : a character, a set behind a backslash, or a range, which has to rise;
* `bracket?` : the depth of a bracket, and the rest behind it;
* `depthBeside depths` : the depth of parts that stand side by side. A single part is as deep as it
  is; two or more are one deeper than the deepest of them.
-/

namespace Devirt.Text.Pattern

/-! ## Depth -/

def depthBeside : List Nat → Nat
  | [] => 0
  | [d] => d
  | ds => ds.foldl max 0 + 1

/-- The depth up to which patterns are taken. -/
def depthLimit : Nat := 250

/-! ## Members -/

def setNames : List String :=
  ["alnum", "alpha", "ascii", "blank", "cntrl", "digit", "graph", "lower", "print", "punct",
   "space", "upper", "word", "xdigit"]

/-- Behind an opening bracket, the rest of a set by name: whether it is turned round, and what
comes behind it. -/
def namedSet? : List Char → Option (Bool × List Char)
  | ':' :: rest =>
    let negated := rest.head? == some '^'
    let rest := if negated then rest.drop 1 else rest
    match rest.dropWhile (· != ':') with
    | ':' :: ']' :: behind =>
      if setNames.contains (String.ofList (rest.takeWhile (· != ':'))) then some (negated, behind)
      else none
    | _ => none
  | _ => none

/-- A character, or a set behind a backslash, which is given as `none`; and the rest. Where bytes
are matched, the character has to be a single one. -/
def single? (m : Mode) (c : Char) (rest : List Char) : Option (Option Char × List Char) :=
  let plain (d : Char) (rest : List Char) : Option (Option Char × List Char) :=
    if m.unicode || d.toNat < 0x80 then some (some d, rest) else none
  if c = '\\' then
    match escape? m rest with
    | some (.literal d, rest) => plain d rest
    | some (.set, rest) => some (none, rest)
    | _ => none
  else plain c rest

/-- The rest behind a member. A dash makes a range, if what follows neither ends the bracket nor is
a dash itself. -/
def member? (m : Mode) (c : Char) (rest : List Char) : Option (List Char) := do
  let (first, rest) ← single? m c rest
  match m.skip rest with
  | '-' :: behind =>
    if m.peek? behind = some ']' ∨ m.peek? behind = some '-' then some ('-' :: behind)
    else
      match m.skip behind with
      | [] => none
      | d :: behind =>
        let (last, rest) ← single? m d behind
        match first, last with
        | some low, some high => if low ≤ high then some rest else none
        | _, _ => none
  | rest => some rest

/-! ## Brackets -/

/-- What has been read of a bracket that is not closed yet. -/
structure OpenBracket where
  /-- Whether only dashes have been read, so that signs still stand for themselves. -/
  fresh : Bool
  /-- The depth of what stands before the last pair of signs. -/
  left : Option Nat
  /-- The depths of the members behind it. -/
  members : List Nat
deriving DecidableEq, Repr

namespace OpenBracket

def depth (b : OpenBracket) : Nat := depthBeside (b.left.toList ++ [depthBeside b.members])

def add (b : OpenBracket) (depth : Nat) : OpenBracket :=
  { b with fresh := false, members := depth :: b.members }

/-- Whether a sign stands for itself at the beginning: dashes, or a closing bracket as the first
member. -/
def takesSign (b : OpenBracket) (c : Char) : Bool :=
  b.fresh && (c == '-' || (c == ']' && b.members.isEmpty))

end OpenBracket

/-- What is open behind an opening bracket, and the rest. A bracket that is turned round holds
bytes past the ASCII range, so only characters can be matched by it. -/
def openBracket? (m : Mode) (cs : List Char) : Option (OpenBracket × List Char) :=
  match m.skip cs with
  | '^' :: rest => if m.unicode then some (⟨true, none, []⟩, rest) else none
  | rest => some (⟨true, none, []⟩, rest)

/-- The depth of a bracket and the rest behind it, with a bracket open inside of others. Each step
takes a character, so as much fuel is enough. -/
def closeBracket? (m : Mode) :
    Nat → OpenBracket → List OpenBracket → List Char → Option (Nat × List Char)
  | 0, _, _, _ => none
  | fuel + 1, b, outer, cs =>
    match m.skip cs with
    | [] => none
    | c :: rest =>
      if b.takesSign c then
        closeBracket? m fuel { b.add 0 with fresh := c == '-' } outer rest
      else if c = ']' then
        match outer with
        | [] => some (b.depth + 1, rest)
        | o :: outer => closeBracket? m fuel (o.add (b.depth + 1)) outer rest
      else if c = '[' then
        match namedSet? rest with
        | some (negated, rest) =>
          if negated && !m.unicode then none else closeBracket? m fuel (b.add 0) outer rest
        | none => do
          let (inner, rest) ← openBracket? m rest
          closeBracket? m fuel inner (b :: outer) rest
      else if "&-~".toList.contains c && rest.head? == some c then
        closeBracket? m fuel ⟨false, some b.depth, []⟩ outer (rest.drop 1)
      else do
        let rest ← member? m c rest
        closeBracket? m fuel (b.add 0) outer rest

def bracket? (m : Mode) (cs : List Char) : Option (Nat × List Char) := do
  let (b, rest) ← openBracket? m cs
  closeBracket? m cs.length b [] rest

end Devirt.Text.Pattern
