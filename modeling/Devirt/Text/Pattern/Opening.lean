import Devirt.Text.Letter
import Devirt.Text.Pattern.Mode

/-!
# What opens with a parenthesis

* `Opening` : a group, with a name or without, or a setting, which only changes the mode;
* `opening?` : reads what stands behind a parenthesis.
-/

namespace Devirt.Text.Pattern

/-- What opens with a parenthesis, with the mode of what comes behind it. -/
inductive Opening where
  | group (mode : Mode) (name : Option String)
  | setting (mode : Mode)
deriving DecidableEq, Repr

def canBeginName (c : Char) : Bool := c == '_' || isLetter c

def canBeInName (c : Char) : Bool := "_.[]".toList.contains c || isLetterOrDigit c

def groupName? (cs : List Char) : Option (String × List Char) :=
  match cs.takeWhile (· != '>'), cs.dropWhile (· != '>') with
  | first :: more, '>' :: rest =>
    if canBeginName first && more.all canBeInName then some (String.ofList (first :: more), rest)
    else none
  | _, _ => none

/-- The switches; those behind the dash are turned off. -/
def isSwitch (c : Char) : Bool := "imsUuRx-".toList.contains c

/-- Whether switches can be given together: none twice, and something behind a dash. -/
def switchesFit (switches : List Char) : Bool :=
  switches.eraseDups.length == switches.length && switches.getLast? != some '-'

/-- A group with a name that no other has. -/
def namedGroup? (m : Mode) (taken : List String) (cs : List Char) :
    Option (Opening × List Char) := do
  let (name, rest) ← groupName? cs
  if taken.contains name then none else some (.group m (some name), rest)

/-- What opens behind a parenthesis, with some names taken, and the rest. -/
def opening? (m : Mode) (taken : List String) (cs : List Char) : Option (Opening × List Char) :=
  match m.skip cs with
  | '?' :: 'P' :: '<' :: rest | '?' :: '<' :: rest => namedGroup? m taken rest
  | '?' :: rest =>
    let switches := rest.takeWhile isSwitch
    if !switchesFit switches then none
    else
      match rest.dropWhile isSwitch with
      | ':' :: rest => some (.group (m.switched switches) none, rest)
      | ')' :: rest => if switches = [] then none else some (.setting (m.switched switches), rest)
      | _ => none
  | rest => some (.group m none, rest)

end Devirt.Text.Pattern
