import Devirt.Text

/-!
# Modes of a pattern

Switches inside of a pattern change how the rest is read.

* `Mode` : whether blanks count, and whether characters or bytes are matched;
* `Mode.switched` : the mode behind a row of switches;
* `Mode.skip` : what comes behind blanks and comments;
* `Mode.peek?` : the character that decides whether a dash makes a range.
-/

namespace Devirt.Text.Pattern

structure Mode where
  /-- Blanks, and comments from `#` to the end of the line, are only there for the reader. -/
  spaced : Bool
  /-- Characters are matched; otherwise bytes are, and a pattern must not take one out of a
  character. -/
  unicode : Bool
deriving DecidableEq, Repr

namespace Mode

def start : Mode := ⟨false, true⟩

/-- Turns one switch on or off. The others do not change what is well-formed. -/
def switch (on : Bool) (m : Mode) : Char → Mode
  | 'x' => { m with spaced := on }
  | 'u' => { m with unicode := on }
  | _ => m

/-- The mode behind a row of switches: those behind a dash are turned off. -/
def switched (m : Mode) (switches : List Char) : Mode :=
  let ons := switches.takeWhile (· != '-')
  let offs := switches.dropWhile (· != '-')
  offs.foldl (switch false) (ons.foldl (switch true) m)

/-- What comes behind blanks and comments, at a place inside of a comment or not. -/
def skipSpace : Bool → List Char → List Char
  | _, [] => []
  | true, c :: cs => skipSpace (c != '\n') cs
  | false, c :: cs =>
    if isBlank c then skipSpace false cs
    else if c = '#' then skipSpace true cs
    else c :: cs

/-- What comes behind the blanks and comments that do not count. -/
def skip (m : Mode) (cs : List Char) : List Char :=
  if m.spaced then skipSpace false cs else cs

/-- The first of the characters behind a dash. Where blanks do not count it is the first one that
is no blank, and a sign that begins a comment is passed over once. If there is none, it is the
next character, blank or not. -/
def peek? (m : Mode) (rest : List Char) : Option Char :=
  if m.spaced then
    match rest.filter (fun c => !isBlank c) with
    | '#' :: c :: _ => some c
    | ['#'] | [] => rest.head?
    | c :: _ => some c
  else rest.head?

end Mode

end Devirt.Text.Pattern
