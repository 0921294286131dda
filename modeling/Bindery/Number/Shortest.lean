import Bindery.Number.Double

/-!
The text of a double: the fewest decimal digits that read back as the same number, and of those the
digits nearest to it.
-/

namespace Bindery.Double

/-- Compares `a · 10 ^ i` with `b · 2 ^ j`. -/
def compareScaled (a : Nat) (i : Int) (b : Nat) (j : Int) : Ordering :=
  compare (a * Nat.pow 10 i.toNat * Nat.pow 2 (-j).toNat)
    (b * Nat.pow 2 j.toNat * Nat.pow 10 (-i).toNat)

/-- Whether `digits · 10 ^ k` rounds to `x`: it lies between the middles to the neighbours of `x`,
which themselves count if the significand is even. -/
def readsBack (x : Double) (digits : Nat) (k : Int) : Bool :=
  let isPower := x.significand == Nat.pow 2 52 && x.exponent > -1074
  let low := 4 * x.significand - (if isPower then 1 else 2)
  let above := compareScaled digits k low (x.exponent - 2)
  let below := compareScaled digits k (4 * x.significand + 2) (x.exponent - 2)
  if x.significand % 2 == 0 then above != .lt && below != .gt else above == .gt && below == .lt

/-- The power of ten with `10 ^ p ≤ x < 10 ^ (p + 1)`. -/
def leadingPower (x : Double) : Int :=
  let p := (x.significand.log2 + x.exponent) * 30103 / 100000
  if compareScaled 1 (p + 1) x.significand x.exponent == .gt then p else p + 1

/-- The multiple of `10 ^ k` next to `x` that reads back as `x`; of two the nearer, and from half
way the even one. -/
def onGrid (x : Double) (k : Int) : Option Nat :=
  let below := x.significand * Nat.pow 2 x.exponent.toNat * Nat.pow 10 (-k).toNat /
    (Nat.pow 2 (-x.exponent).toNat * Nat.pow 10 k.toNat)
  match x.readsBack below k, x.readsBack (below + 1) k with
  | false, false => none
  | true, false => some below
  | false, true => some (below + 1)
  | true, true =>
    match compareScaled (2 * below + 1) k (2 * x.significand) x.exponent with
    | .gt => some below
    | .lt => some (below + 1)
    | .eq => some (if below % 2 == 0 then below else below + 1)

/-- The first grid, from coarse to fine, with a point that reads back. -/
def firstGrid (x : Double) : Nat → Int → Nat × Int
  | 0, k => (((x.onGrid k).getD 0), k)
  | n + 1, k =>
    match x.onGrid k with
    | some digits => (digits, k)
    | none => firstGrid x n (k - 1)

/-- Takes the zeros off the end of a digit sequence of at most `n + 1` digits. -/
def trimZeros : Nat → Nat × Int → Nat × Int
  | 0, r => r
  | n + 1, (digits, k) =>
    if digits % 10 == 0 && digits != 0 then trimZeros n (digits / 10, k + 1) else (digits, k)

/-- The shortest digits of a number other than zero, and the power of ten of their last place. -/
def shortest (x : Double) : Nat × Int :=
  trimZeros 17 (x.firstGrid 16 x.leadingPower)

/-- Which numbers a notation writes without an exponent, by the power of ten of the first digit. -/
structure Layout where
  positional : Int → Bool

/-- Digits around a decimal point, with at least one digit on each side. -/
def positionalText (digits : List Char) (k : Int) : List Char :=
  let whole := digits.length + k
  if 0 ≤ k then digits ++ List.replicate k.toNat '0' ++ ['.', '0']
  else if 0 < whole then digits.take whole.toNat ++ '.' :: digits.drop whole.toNat
  else '0' :: '.' :: List.replicate (-whole).toNat '0' ++ digits

/-- An exponent always has a sign, and no zeros in front. -/
def exponentText (p : Int) : List Char :=
  (if p < 0 then '-' else '+') :: (toString p.natAbs).toList

def scientificText (digits : List Char) (p : Int) : List Char :=
  match digits with
  | [] => []
  | [d] => d :: 'e' :: exponentText p
  | d :: ds => d :: '.' :: ds ++ 'e' :: exponentText p

def magnitudeText (layout : Layout) (x : Double) : List Char :=
  if x.significand == 0 then ['0', '.', '0'] else
    let (digits, k) := x.shortest
    let ds := (toString digits).toList
    let p := ds.length + k - 1
    if layout.positional p then positionalText ds k else scientificText ds p

def text (layout : Layout) (x : Double) : String :=
  String.ofList ((if x.negative then ['-'] else []) ++ magnitudeText layout x)

/-- Numbers from `0.00001` up to below `10 ^ 16` stand without an exponent. -/
def Layout.compact : Layout := ⟨fun p => -5 ≤ p && p ≤ 15⟩

/-- No number has an exponent. -/
def Layout.plain : Layout := ⟨fun _ => true⟩

end Bindery.Double
