import Devirt.Text.Pattern.Mode

/-!
# Characters behind a backslash

* `Escape` : what a backslash and the characters behind it stand for;
* `escape?` : reads them. A backslash stands before a character that it gives a meaning or takes
  one from.

A code in braces, or a property in braces, needs a closing brace. That brace ends the place where a
pattern can stand, so neither form is ever complete here.
-/

namespace Devirt.Text.Pattern

/-- What a backslash and the characters behind it stand for: a character, a set of characters, or
a place between characters. -/
inductive Escape where
  | literal (c : Char)
  | set
  | edge
deriving DecidableEq, Repr

def hexValue? (c : Char) : Option Nat :=
  if c.isDigit then some (c.toNat - '0'.toNat)
  else if 'a' ≤ c ∧ c ≤ 'f' then some (c.toNat - 'a'.toNat + 10)
  else if 'A' ≤ c ∧ c ≤ 'F' then some (c.toNat - 'A'.toNat + 10)
  else none

/-- The value of a fixed number of hexadecimal digits behind a value, and the rest. -/
def hexCode? (m : Mode) : Nat → Nat → List Char → Option (Nat × List Char)
  | 0, value, cs => some (value, cs)
  | _ + 1, _, [] => none
  | count + 1, value, c :: cs => do
    let digit ← hexValue? c
    hexCode? m count (16 * value + digit) (m.skip cs)

/-- The character of a code in a fixed number of hexadecimal digits, and the rest. -/
def hexChar? (m : Mode) (count : Nat) (cs : List Char) : Option (Char × List Char) := do
  let (code, rest) ← hexCode? m count 0 (m.skip cs)
  if code.isValidChar then some (Char.ofNat code, rest) else none

def controlChar? : Char → Option Char
  | 'a' => some '\x07'
  | 'f' => some '\x0c'
  | 't' => some '\t'
  | 'n' => some '\n'
  | 'r' => some '\r'
  | 'v' => some '\x0b'
  | _ => none

def isEscapable (c : Char) : Bool :=
  c.toNat < 0x80 && !c.isAlphanum && c != '<' && c != '>'

/-- The letters of the classes that characters are sorted into. -/
def isCategoryLetter (c : Char) : Bool := "clmnpsz".toList.contains c.toLower

/-- What stands behind a backslash, and the rest. Where bytes are matched, a set holds no byte past
the ASCII range, and no code names one. The edges of words are those of ASCII words: with all
letters, what is a word is not told by single bytes. -/
def escape? (m : Mode) : List Char → Option (Escape × List Char)
  | [] => none
  | c :: rest =>
    if c = 'x' then do
      let (d, rest) ← hexChar? m 2 rest
      if m.unicode || d.toNat < 0x80 then some (.literal d, rest) else none
    else if c = 'u' then (hexChar? m 4 rest).map (fun (d, rest) => (.literal d, rest))
    else if c = 'U' then (hexChar? m 8 rest).map (fun (d, rest) => (.literal d, rest))
    else if c = 'p' ∨ c = 'P' then
      match m.skip rest with
      | l :: rest => if m.unicode && isCategoryLetter l then some (.set, m.skip rest) else none
      | [] => none
    else if "dsw".toList.contains c then some (.set, rest)
    else if "DSW".toList.contains c then if m.unicode then some (.set, rest) else none
    else if "Az".toList.contains c then some (.edge, rest)
    else if "bB<>".toList.contains c then if m.unicode then none else some (.edge, rest)
    else if isEscapable c then some (.literal c, rest)
    else (controlChar? c).map (fun d => (.literal d, rest))

end Devirt.Text.Pattern
