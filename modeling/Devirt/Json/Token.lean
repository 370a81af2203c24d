import Devirt.Json

/-!
# JSON tokens

The words of a JSON text, found by one pass over its characters.

* `Token` : punctuation, or a value that needs no further reading;
* `Scan` : what the pass has read of the current token; `Scan.step` takes one more character;
* `tokens? text` : the tokens of a text, or `none` if some word of it is none;
* `number? word` : the integer or double that a number's spelling stands for.
-/

namespace Devirt.Json

inductive Token where
  | openArray
  | closeArray
  | openObject
  | closeObject
  | comma
  | colon
  | text (s : String)
  | scalar (v : Json)
deriving Inhabited

/-! ## Numbers -/

/-- The greatest integer that is kept as one. -/
def maxInt : Nat := 18446744073709551615

/-- The greatest magnitude of a negative integer that is kept as one. -/
def maxNegative : Nat := 9223372036854775808

def digit (c : Char) : Nat := c.toNat - '0'.toNat

/-- What is kept of a row of digits: as many as fit 64 bits, and for each one after the first
that did not fit, one power of ten. -/
structure Significand where
  value : Nat
  dropped : Nat
  full : Bool

/-- The significand of a number's whole part. -/
def Significand.ofWhole (ds : List Char) : Significand :=
  ds.foldl
    (fun s c =>
      if s.full then { s with dropped := s.dropped + 1 }
      else if s.value * 10 + digit c ≤ maxInt then { s with value := s.value * 10 + digit c }
      else ⟨s.value, s.dropped + 1, true⟩)
    ⟨0, 0, false⟩

/-- The significand and decimal exponent after the fraction's digits: a digit that fits is taken
in, and the first that does not ends the reading. -/
def addFraction (value : Nat) (exponent : Int) : List Char → Nat × Int
  | [] => (value, exponent)
  | c :: rest =>
    if value * 10 + digit c ≤ maxInt then
      addFraction (value * 10 + digit c) (exponent - 1) rest
    else (value, exponent)

/-- The sign and digits of an exponent part, whose mark has been read. -/
def exponent? (cs : List Char) : Option (Bool × List Char) :=
  let (negative, ds) :=
    match cs with
    | '+' :: ds => (false, ds)
    | '-' :: ds => (true, ds)
    | ds => (false, ds)
  if ds.isEmpty ∨ ¬ ds.all Char.isDigit then none else some (negative, ds)

/-- The greatest exponent that is read as a number. -/
def maxExponent : Nat := 2147483647

/-- The double of a significand, its decimal exponent so far and its exponent part. An exponent
too great to read gives zero, unless it is positive and the significand is not zero. -/
def withExponent (m : Nat) (e : Int) (negative : Bool) (ds : List Char) : Option Double :=
  let k := ds.foldl (fun n c => n * 10 + digit c) 0
  if maxExponent < k then if m ≠ 0 ∧ ¬ negative then none else some .zero
  else
    let total := if negative then e - (k : Int) else e + (k : Int)
    Double.ofDecimal m (max (-(maxExponent : Int) - 1) (min total maxExponent))

/-- The value of an unsigned number's parts: an integer without fraction and exponent that fits
is kept, everything else is a double. -/
def numberOf (negative : Bool) (whole : List Char) (fraction : Option (List Char))
    (exponent : Option (Bool × List Char)) : Option Json :=
  let s := Significand.ofWhole whole
  let signed (x : Double) : Json := .float (if negative then x.neg else x)
  match fraction, exponent with
  | none, none =>
    if s.full then (Double.ofDecimal s.value s.dropped).map signed
    else if ¬ negative then some (.int s.value)
    else if s.value = 0 then some (signed .zero)
    else if s.value ≤ maxNegative then some (.int (-(s.value : Int)))
    else (Double.ofNat s.value).map signed
  | _, _ =>
    let (m, e) := addFraction s.value s.dropped (fraction.getD [])
    match exponent with
    | none => (Double.ofDecimal m e).map signed
    | some (below, ds) => (withExponent m e below ds).map signed

/-- The number that a word spells: no leading zeros, digits on both sides of a point. -/
def number? (word : List Char) : Option Json := do
  let (negative, cs) :=
    match word with
    | '-' :: cs => (true, cs)
    | cs => (false, cs)
  let whole := cs.takeWhile Char.isDigit
  let cs := cs.dropWhile Char.isDigit
  if whole.isEmpty ∨ (whole.head? = some '0' ∧ whole.length ≠ 1) then none
  let (fraction, cs) ←
    match cs with
    | '.' :: cs =>
      let ds := cs.takeWhile Char.isDigit
      if ds.isEmpty then none else some (some ds, cs.dropWhile Char.isDigit)
    | cs => some (none, cs)
  match cs with
  | [] => numberOf negative whole fraction none
  | c :: cs =>
    if c = 'e' ∨ c = 'E' then numberOf negative whole fraction (some (← exponent? cs))
    else none

def word? (word : List Char) : Option Json :=
  if word = "null".toList then some .null
  else if word = "true".toList then some (.bool true)
  else if word = "false".toList then some (.bool false)
  else number? word

/-! ## One pass over the characters -/

/-- What has been read of the current token; gathered characters stand last first. -/
inductive Scan where
  | between
  | word (gathered : List Char)
  | quoted (gathered : List Char)
  | escape (gathered : List Char)
  | hex (gathered : List Char) (high : Option Nat) (code digits : Nat)
  | lowMark (gathered : List Char) (high : Nat)
  | lowHex (gathered : List Char) (high : Nat)

def punctuation? : Char → Option Token
  | '[' => some .openArray
  | ']' => some .closeArray
  | '{' => some .openObject
  | '}' => some .closeObject
  | ',' => some .comma
  | ':' => some .colon
  | _ => none

/-- Space, tab, line feed and carriage return separate tokens. -/
def isBlank (c : Char) : Bool := c = ' ' || c = '\t' || c = '\n' || c = '\r'

def hexDigit? (c : Char) : Option Nat :=
  if c.isDigit then some (digit c)
  else if 'a' ≤ c ∧ c ≤ 'f' then some (c.toNat - 'a'.toNat + 10)
  else if 'A' ≤ c ∧ c ≤ 'F' then some (c.toNat - 'A'.toNat + 10)
  else none

/-- The character of a one-letter escape. -/
def escaped? : Char → Option Char
  | '"' => some '"'
  | '\\' => some '\\'
  | '/' => some '/'
  | 'b' => some '\x08'
  | 'f' => some '\x0c'
  | 'n' => some '\n'
  | 'r' => some '\r'
  | 't' => some '\t'
  | _ => none

/-- The state after a complete four-digit escape: a character, the first half of a pair, or a
second half that joins the first. Halves that stand alone are refused. -/
def afterCode (gathered : List Char) (high : Option Nat) (code : Nat) : Option Scan :=
  let isHigh := 0xD800 ≤ code && code ≤ 0xDBFF
  let isLow := 0xDC00 ≤ code && code ≤ 0xDFFF
  match high with
  | none =>
    if isHigh then some (.lowMark gathered code)
    else if isLow then none
    else some (.quoted (Char.ofNat code :: gathered))
  | some h =>
    if isLow then
      some (.quoted (Char.ofNat (0x10000 + (h - 0xD800) * 0x400 + (code - 0xDC00)) :: gathered))
    else none

/-- One more character between tokens. -/
def Scan.start (out : List Token) (c : Char) : Option (Scan × List Token) :=
  if isBlank c then some (.between, out)
  else if c = '"' then some (.quoted [], out)
  else match punctuation? c with
    | some t => some (.between, t :: out)
    | none => some (.word [c], out)

/-- One more character; finished tokens are put in front of `out`. -/
def Scan.step (out : List Token) : Scan → Char → Option (Scan × List Token)
  | .between, c => Scan.start out c
  | .word cs, c =>
    if isBlank c || c = '"' || (punctuation? c).isSome then do
      Scan.start (.scalar (← word? cs.reverse) :: out) c
    else some (.word (c :: cs), out)
  | .quoted cs, c =>
    if c = '"' then some (.between, .text (String.ofList cs.reverse) :: out)
    else if c = '\\' then some (.escape cs, out)
    else if c.toNat < 0x20 then none
    else some (.quoted (c :: cs), out)
  | .escape cs, c =>
    if c = 'u' then some (.hex cs none 0 4, out)
    else (escaped? c).map (fun e => (.quoted (e :: cs), out))
  | .hex cs high code digits, c => do
    let d ← hexDigit? c
    let code := code * 16 + d
    if digits ≤ 1 then return (← afterCode cs high code, out)
    else return (.hex cs high code (digits - 1), out)
  | .lowMark cs high, c => if c = '\\' then some (.lowHex cs high, out) else none
  | .lowHex cs high, c => if c = 'u' then some (.hex cs (some high) 0 4, out) else none

/-- The tokens at the end of the text; a quoted text must have been closed. -/
def Scan.finish (out : List Token) : Scan → Option (List Token)
  | .between => some out.reverse
  | .word cs => do return (Token.scalar (← word? cs.reverse) :: out).reverse
  | _ => none

def tokens? (text : String) : Option (List Token) := do
  let (scan, out) ← text.toList.foldlM
    (fun (scan, out) c => Scan.step out scan c) (Scan.between, [])
  scan.finish out

end Devirt.Json
