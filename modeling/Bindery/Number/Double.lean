/-!
Finite numbers of the 64-bit binary format, in exact arithmetic: rounding goes to the nearest
number and, from half way, to the one with the even significand.
-/

namespace Bindery

/-- The number `± significand · 2 ^ exponent`. `ofRatio` yields the one form with the significand
below `2 ^ 53` and either at least `2 ^ 52` or with the least exponent, `-1074`. -/
structure Double where
  negative : Bool
  significand : Nat
  exponent : Int
  deriving DecidableEq, Repr, Inhabited

namespace Double

/-- `n / d` rounded to a natural number, from half way to the even one. -/
def roundDiv (n d : Nat) : Nat :=
  if 2 * (n % d) > d || (2 * (n % d) == d && n / d % 2 == 1) then n / d + 1 else n / d

/-- `num / den / 2 ^ e` as a fraction. -/
def scaled (num den : Nat) (e : Int) : Nat × Nat :=
  if e < 0 then (num * Nat.pow 2 (-e).toNat, den) else (num, den * Nat.pow 2 e.toNat)

/-- The exponent at which `num / den` has a significand of 53 bits, or the least exponent. -/
def fittingExponent (num den : Nat) : Int :=
  let e : Int := num.log2 - den.log2 - 53
  let (n, d) := scaled num den e
  max (-1074) (if n / d < Nat.pow 2 53 then e else e + 1)

def zero (negative : Bool) : Double := ⟨negative, 0, -1074⟩

/-- The double nearest to `± num / den`; `none` if that is beyond the largest one. -/
def ofRatio (negative : Bool) (num den : Nat) : Option Double :=
  if num == 0 then some (zero negative) else
    let e := fittingExponent num den
    let (n, d) := scaled num den e
    let m := roundDiv n d
    let (m, e) := if m == Nat.pow 2 53 then (Nat.pow 2 52, e + 1) else (m, e)
    if e > 971 then none else some ⟨negative, m, e⟩

/-- The double nearest to `± digits · 10 ^ exponent`. Beyond `10 ^ 310` nothing is finite, and below
`10 ^ -400` everything is zero, however long the exponent. -/
def ofDecimal (negative : Bool) (digits : Nat) (exponent : Int) : Option Double :=
  let places : Int := digits.log2 * 30103 / 100000
  if digits == 0 || exponent + places < -400 then some (zero negative)
  else if exponent + places > 310 then none
  else if exponent < 0 then ofRatio negative digits (Nat.pow 10 (-exponent).toNat)
  else ofRatio negative (digits * Nat.pow 10 exponent.toNat) 1

/-- The double nearest to a natural number of at most 64 bits, which is never out of range. -/
def ofNat (n : Nat) : Double :=
  (ofRatio false n 1).getD (zero false)

def mul (x y : Double) : Option Double :=
  let e := x.exponent + y.exponent
  ofRatio (x.negative != y.negative)
    (x.significand * y.significand * Nat.pow 2 e.toNat) (Nat.pow 2 (-e).toNat)

/-- `none` also stands for a quotient by zero. -/
def div (x y : Double) : Option Double :=
  let e := x.exponent - y.exponent
  if y.significand == 0 then none else
    ofRatio (x.negative != y.negative) (x.significand * Nat.pow 2 e.toNat)
      (y.significand * Nat.pow 2 (-e).toNat)

def neg (x : Double) : Double := { x with negative := !x.negative }

end Double

end Bindery
