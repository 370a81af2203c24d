import Devirt.Json.Double

/-!
# The text of a double

The fewest decimal digits that read back to the same double, and of those the nearest to it.

* `Double.shortest x` : digits and decimal exponent, found by trying grids of 1, 2, … 17 digits;
* `Double.text x` : positional while the first digit stands for `10 ^ -5` to `10 ^ 15`, with a
  `.0` on whole numbers, and with a signed exponent otherwise.
-/

namespace Devirt.Double

/-- The real numbers that round to a positive double: from `low` to `high`, in units of
`2 ^ exponent`, around `value`; the ends belong to it iff `closed`. -/
structure Interval where
  low : Nat
  value : Nat
  high : Nat
  exponent : Int
  closed : Bool

/-- The interval of a positive double. Below a power of two the neighbours are twice as close. -/
def interval (x : Double) : Interval :=
  let m := x.significand
  let below := if m = twoTo 52 ∧ minExponent < x.exponent then 1 else 2
  ⟨4 * m - below, 4 * m, 4 * m + 2, x.exponent - 2, m % 2 == 0⟩

/-- Whether the grid point `k * den / num` (in the interval's unit) lies in the interval. -/
def Interval.admits (i : Interval) (num k den : Nat) : Bool :=
  let point := k * den
  if i.closed then i.low * num ≤ point && point ≤ i.high * num
  else i.low * num < point && point < i.high * num

/-- The better of the two grid neighbours of the interval's value, where one grid step is
`den / num` of the interval's unit: none, the one admitted, or the nearer of two. -/
def Interval.onGrid (i : Interval) (num den : Nat) : Option Nat :=
  let k := i.value * num / den
  let r := i.value * num % den
  match i.admits num k den, i.admits num (k + 1) den with
  | false, false => none
  | true, false => some k
  | false, true => some (k + 1)
  | true, true => some (if 2 * r < den ∨ (2 * r = den ∧ k % 2 = 0) then k else k + 1)

/-- The greatest `e` with `10 ^ e ≤ n / d`, searched upwards from a start below it. -/
def floorLog10 (n d : Nat) : Nat → Int → Int
  | 0, e => e
  | steps + 1, e =>
    let e' := e + 1
    let reached :=
      if 0 ≤ e' then d * tenTo e'.toNat ≤ n else d ≤ n * tenTo (-e').toNat
    if reached then floorLog10 n d steps e' else e

/-- Strips trailing zeros off a decimal `k * 10 ^ e`. -/
def stripZeros : Nat → Nat → Int → Nat × Int
  | 0, k, e => (k, e)
  | steps + 1, k, e => if k % 10 = 0 then stripZeros steps (k / 10) (e + 1) else (k, e)

/-- The shortest decimal `k * 10 ^ e` that reads back to a positive double, nearest to it among
those of its length. Seventeen digits always suffice. -/
def shortest (x : Double) : Nat × Int :=
  let i := x.interval
  let (n, d) := scaled i.value 1 i.exponent
  let top := floorLog10 n d 700 (-350)
  let attempt (digits : Nat) : Option (Nat × Int) :=
    let e := top - (digits : Int) + 1
    let (a, b) := scaled 1 1 i.exponent
    let (num, den) := if 0 ≤ e then (a, b * tenTo e.toNat) else (a * tenTo (-e).toNat, b)
    (i.onGrid num den).map (fun k => (k, e))
  match (List.range 17).findSome? (fun n => attempt (n + 1)) with
  | some (k, e) => stripZeros 20 k e
  | none => (0, 0)

/-- The least and greatest exponent of the first digit that are written positionally. -/
def positionalRange : Int × Int := (-5, 15)

/-- The text of a decimal with these digits whose first digit stands for `10 ^ e`. -/
def decimalText (digits : String) (e : Int) : String :=
  let n := digits.length
  if positionalRange.1 ≤ e ∧ e ≤ positionalRange.2 then
    if e < 0 then "0." ++ "".pushn '0' ((-e).toNat - 1) ++ digits
    else if n ≤ e.toNat + 1 then digits ++ "".pushn '0' (e.toNat + 1 - n) ++ ".0"
    else
      let cs := digits.toList
      String.ofList (cs.take (e.toNat + 1)) ++ "." ++ String.ofList (cs.drop (e.toNat + 1))
  else
    let cs := digits.toList
    let mantissa :=
      if n = 1 then digits else String.ofList (cs.take 1) ++ "." ++ String.ofList (cs.drop 1)
    mantissa ++ (if e < 0 then "e-" else "e+") ++ toString e.natAbs

def text (x : Double) : String :=
  let sign := if x.negative then "-" else ""
  if x.significand = 0 then sign ++ "0.0"
  else
    let (k, e) := x.shortest
    let digits := toString k
    sign ++ decimalText digits (e + digits.length - 1)

end Devirt.Double
