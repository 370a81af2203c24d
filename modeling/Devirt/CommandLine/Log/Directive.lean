import Devirt.Event
import Devirt.Text
import Devirt.Text.Letter
import Devirt.Text.Pattern

/-!
# Directives of a log setting

A directive names the events it is about and the least grave level of them that is shown:
`level`, `target`, `target=level`, or with a scope in brackets `target[scope]=level`. The scope is
the name of a span of time, a field in braces, or both, and a field can come with a value.

* `Directive` : what a directive says about single events;
* `Directive.read? text` : `none` if the text is no directive, `some none` if it is one that can
  only come true inside of a span, of which there are none.

Blanks around a directive do not end it, but the places found without them are cut from the text
with them. So a directive with blanks before it is read shifted, and one with blanks behind its
last word has them in that word. Places are counted in bytes, and a shifted one that falls inside
of a character makes the directive unreadable.
-/

namespace Devirt

/-- For targets that start with a name, and events that have a field if one is given: the least
grave level shown, or none at all. -/
structure Directive where
  target : String
  field : Option String
  level : Option Level
deriving DecidableEq, Repr

namespace Directive

/-! ## Levels -/

/-- The number that a text of digits stands for; a plus may stand before them. -/
def number? (text : String) : Option Nat :=
  let digits := match text.toList with
    | '+' :: rest => rest
    | cs => cs
  if digits ≠ [] ∧ digits.all Char.isDigit then
    some (digits.foldl (fun n c => 10 * n + (c.toNat - '0'.toNat)) 0)
  else none

/-- The level of a number; `none` inside means no level at all. -/
def numberedLevel? : Nat → Option (Option Level)
  | 0 => some none
  | 1 => some (some .error)
  | 2 => some (some .warn)
  | 3 => some (some .info)
  | 4 => some (some .debug)
  | 5 => some (some .trace)
  | _ => none

/-- The level of a name in letters of any case. -/
def namedLevel? (text : String) : Option (Option Level) :=
  match String.ofList (text.toList.map Char.toLower) with
  | "off" => some none
  | "error" => some (some .error)
  | "warn" => some (some .warn)
  | "info" => some (some .info)
  | "debug" => some (some .debug)
  | "trace" => some (some .trace)
  | _ => none

def level? (text : String) : Option (Option Level) :=
  match number? text with
  | some n => numberedLevel? n
  | none => namedLevel? text

/-- The level behind an equals sign; nothing there means all levels. -/
def givenLevel? (text : String) : Option (Option Level) :=
  if text = "" then some (some .trace) else level? text

/-! ## Fields -/

/-- Whether a text is a number with a plus before it. -/
def isPlusNumber (text : String) : Bool :=
  match text.toList.map Char.toLower with
  | '+' :: rest =>
    let mantissa := rest.takeWhile (· != 'e')
    let isMantissa :=
      match Text.splitChars '.' mantissa with
      | [whole] => whole != [] && whole.all Char.isDigit
      | [whole, part] => whole ++ part != [] && (whole ++ part).all Char.isDigit
      | _ => false
    let isExponent :=
      match rest.dropWhile (· != 'e') with
      | [] => true
      | _ :: '+' :: digits | _ :: '-' :: digits => digits != [] && digits.all Char.isDigit
      | _ :: digits => digits != [] && digits.all Char.isDigit
    ["inf".toList, "infinity".toList, "nan".toList].contains rest || (isMantissa && isExponent)
  | _ => false

/-- A field in a scope: its name, and whether a value is asked for, which is a number or a
pattern. -/
def field? (text : String) : Option (String × Bool) :=
  match Text.split '=' text with
  | [] => none
  | [name] => if name = "" then none else some (name, false)
  | name :: value :: _ =>
    if isPlusNumber value || Text.isPattern value then some (name, true) else none

/-! ## Reading -/

def cut? (text : List Char) (first last : Nat) : Option String :=
  (Text.slice? text first last).map String.ofList

def cutRest? (text : List Char) (first : Nat) : Option String :=
  (Text.dropBytes? first text).map String.ofList

/-- The level behind a scope, from what follows the scope and the place where that begins. -/
def levelAt? (text : List Char) (place : Nat) : List Char → Option (Option Level)
  | [] => some (some .trace)
  | '=' :: _ => (cutRest? text (place + 1)).bind givenLevel?
  | _ => none

/-- A directive with a scope, from what follows the opening bracket and the place where that
begins. -/
def scoped? (text : List Char) (target : String) (first : Nat) (rest : List Char) :
    Option (Option Directive) := do
  let endsName (c : Char) : Bool := c == ']' || c == '\x7b'
  let ends := first + Text.byteLength (rest.takeWhile (fun c => !endsName c))
  let span ← cut? text first ends
  match rest.dropWhile (fun c => !endsName c) with
  | ']' :: behind => (levelAt? text (ends + 1) behind).map (fun _ => none)
  | '\x7b' :: inner =>
    let closes := ends + 1 + Text.byteLength (inner.takeWhile (· != '\x7d'))
    let (name, hasValue) ← field? (← cut? text (ends + 1) closes)
    match inner.dropWhile (· != '\x7d') with
    | '\x7d' :: ']' :: behind =>
      let level ← levelAt? text (closes + 2) behind
      if hasValue || span ≠ "" then return none
      else return some ⟨target, some name, level⟩
    | _ => none
  | _ => none

/-- Whether a directive can begin with a character, if not with a scope. -/
def canBegin (c : Char) : Bool := c == '-' || c == ':' || c == '_' || Text.isLetterOrDigit c

def read? (s : String) : Option (Option Directive) :=
  let text := s.toList
  let trimmed := Text.trim text
  match trimmed with
  | [] => none
  | '[' :: rest => scoped? text "" 1 rest
  | c :: _ =>
    if !canBegin c then none
    else
      let endsTarget (c : Char) : Bool := c == '=' || c == '['
      let ends := Text.byteLength (trimmed.takeWhile (fun c => !endsTarget c))
      match trimmed.dropWhile (fun c => !endsTarget c) with
      | [] =>
        match level? s with
        | some level => some (some ⟨"", none, level⟩)
        | none => some (some ⟨s, none, some .trace⟩)
      | '=' :: _ => do
        let target ← cut? text 0 ends
        let level ← givenLevel? (← cutRest? text (ends + 1))
        return some ⟨target, none, level⟩
      | _ :: rest => do scoped? text (← cut? text 0 ends) (ends + 1) rest

end Directive

end Devirt
