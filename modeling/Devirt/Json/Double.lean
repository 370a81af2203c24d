/-!
# Double-precision numbers

A finite double is a sign, a significand and a binary exponent, so that every operation on it is
exact arithmetic on naturals followed by one rounding.

* `roundQuotient n d s` : the double nearest to `n / d * 2 ^ s`, a half going to the even
  significand; `none` past the largest double;
* `Double.ofNat`, `Double.mul`, `Double.div` : the operations the reader of decimals needs;
* `Double.ofDecimal m e` : the value read for `m * 10 ^ e`. It is computed from the rounded
  significand and a rounded power of ten, so it can miss the nearest double by a unit.
-/

namespace Devirt

/-- The finite double `(-1) ^ negative * significand * 2 ^ exponent`. -/
structure Double where
  negative : Bool
  significand : Nat
  exponent : Int
deriving DecidableEq, Repr, Inhabited

namespace Double

/-- The exponent of the subnormal numbers, the least there is. -/
def minExponent : Int := -1074

def maxExponent : Int := 971

def zero : Double := ⟨false, 0, minExponent⟩

def neg (x : Double) : Double := { x with negative := !x.negative }

/-! ## Rounding -/

def twoTo (k : Nat) : Nat := Nat.pow 2 k

def tenTo (k : Nat) : Nat := Nat.pow 10 k

/-- `n * 2 ^ s` as a quotient of naturals over `d`. -/
def scaled (n d : Nat) (s : Int) : Nat × Nat :=
  if 0 ≤ s then (n * twoTo s.toNat, d) else (n, d * twoTo (-s).toNat)

/-- The natural nearest to `n / d`; a half goes to the even neighbour. -/
def roundHalfEven (n d : Nat) : Nat :=
  let q := n / d
  let r := n % d
  if d < 2 * r ∨ (d = 2 * r ∧ q % 2 = 1) then q + 1 else q

/-- The greatest `e` with `2 ^ e ≤ n / d`, for positive `n` and `d`. -/
def floorLog2 (n d : Nat) : Int :=
  let k : Int := (n.log2 : Int) - (d.log2 : Int)
  let (a, b) := scaled n d (-k)
  if b ≤ a then k else k - 1

/-- The positive double nearest to `n / d * 2 ^ s`, or `none` if there is no finite one. -/
def roundQuotient (n d : Nat) (s : Int) : Option Double :=
  if n = 0 then some zero
  else
    let q := max (floorLog2 n d + s - 52) minExponent
    let (a, b) := scaled n d (s - q)
    let m := roundHalfEven a b
    let (m, q) := if m = twoTo 53 then (twoTo 52, q + 1) else (m, q)
    if maxExponent < q then none else some ⟨false, m, q⟩

/-! ## Operations on non-negative doubles -/

def ofNat (n : Nat) : Option Double := roundQuotient n 1 0

def mul (x y : Double) : Option Double :=
  roundQuotient (x.significand * y.significand) 1 (x.exponent + y.exponent)

def div (x y : Double) : Option Double :=
  roundQuotient x.significand y.significand (x.exponent - y.exponent)

/-- The greatest power of ten that is a double has this exponent. -/
def maxPowerOfTen : Nat := 308

def powerOfTen (k : Nat) : Option Double := ofNat (tenTo k)

/-- `x * 10 ^ e` by one product or quotient with a power of ten, after whole divisions by the
greatest power as long as `e` lies below its range. A product past the range is refused. -/
def scaleByTen (x : Double) (e : Int) : Option Double :=
  if e.natAbs ≤ maxPowerOfTen then do
    let p ← powerOfTen e.natAbs
    if 0 ≤ e then x.mul p else x.div p
  else if x.significand = 0 then some x
  else if 0 ≤ e then none
  else do
    let p ← powerOfTen maxPowerOfTen
    let y ← x.div p
    y.scaleByTen (e + maxPowerOfTen)
termination_by e.natAbs
decreasing_by
  simp only [maxPowerOfTen] at *
  omega

/-- The value read for the decimal `m * 10 ^ e`. -/
def ofDecimal (m : Nat) (e : Int) : Option Double := do
  let x ← ofNat m
  x.scaleByTen e

end Double

end Devirt
