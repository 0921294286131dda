import Bindery.Document.Node

/-!
Numbers in JSON text: their grammar, and the value of each.

A number without fraction and exponent that 64 bits hold is that integer; every other number is a
double. Its digits fill a 64-bit word, those that no longer fit only count as places, and the word
is then scaled by powers of ten in double arithmetic.
-/

namespace Bindery.Json

/-- A number as it stands in the text. -/
structure Numeral where
  negative : Bool
  whole : List Nat
  /-- The digits after the point; none if there is no point. -/
  fraction : List Nat
  /-- The sign and the digits after `e`. -/
  exponent : Option (Bool × List Nat)
  deriving DecidableEq, Repr

namespace Numeral

def digit? (c : Char) : Option Nat :=
  if c.isDigit then some (c.toNat - '0'.toNat) else none

/-- The digits at the start of a text, and the rest. -/
def digits : List Char → List Nat × List Char
  | [] => ([], [])
  | c :: cs =>
    match digit? c with
    | none => ([], c :: cs)
    | some d => let (ds, rest) := digits cs; (d :: ds, rest)

/-- A single zero, or digits that start with another one. -/
def scanWhole (cs : List Char) : Option (List Nat × List Char) :=
  match digits cs with
  | ([], _) => none
  | (0 :: _ :: _, _) => none
  | r => some r

def scanFraction : List Char → Option (List Nat × List Char)
  | '.' :: cs =>
    match digits cs with
    | ([], _) => none
    | r => some r
  | cs => some ([], cs)

def scanSign : List Char → Bool × List Char
  | '-' :: cs => (true, cs)
  | '+' :: cs => (false, cs)
  | cs => (false, cs)

def scanExponent : List Char → Option (Option (Bool × List Nat) × List Char)
  | c :: cs =>
    if c = 'e' || c = 'E' then
      let (negative, cs) := scanSign cs
      match digits cs with
      | ([], _) => none
      | (ds, rest) => some (some (negative, ds), rest)
    else some (none, c :: cs)
  | [] => some (none, [])

/-- The longest number at the start of a text. -/
def scan (cs : List Char) : Option (Numeral × List Char) := do
  let (negative, cs) := match cs with
    | '-' :: cs => (true, cs)
    | cs => (false, cs)
  let (whole, cs) ← scanWhole cs
  let (fraction, cs) ← scanFraction cs
  let (exponent, cs) ← scanExponent cs
  pure (⟨negative, whole, fraction, exponent⟩, cs)

/-- Appends digits to a number as long as 64 bits hold it; counts those left over. -/
def fill : Nat → List Nat → Nat × Nat
  | word, [] => (word, 0)
  | word, d :: ds =>
    if word * 10 + d < Nat.pow 2 64 then fill (word * 10 + d) ds else (word, (d :: ds).length)

def powerOfTen (k : Nat) : Double :=
  (Double.ofDecimal false 1 k).getD (.zero false)

/-- Divides by the largest power of ten again and again until the exponent is within its range. Four
rounds bring any 64-bit word to zero. -/
def scaleDown : Nat → Double → Int → Double
  | 0, x, _ => x
  | n + 1, x, e =>
    if -308 ≤ e then (x.div (powerOfTen (-e).toNat)).getD x
    else scaleDown n ((x.div (powerOfTen 308)).getD x) (e + 308)

/-- `word · 10 ^ e` in double arithmetic; `none` if it is out of range. -/
def scale (word : Nat) (e : Int) : Option Double :=
  let x := Double.ofNat word
  if word == 0 then some x
  else if e < 0 then some (scaleDown 4 x e)
  else if e ≤ 308 then x.mul (powerOfTen e.toNat)
  else none

def signed (negative : Bool) (x : Double) : Double :=
  if negative then x.neg else x

def ofDigits (ds : List Nat) : Nat :=
  ds.foldl (fun n d => n * 10 + d) 0

/-- Beyond 32 bits the size of an exponent no longer matters. -/
def exponentValue : Option (Bool × List Nat) → Int
  | none => 0
  | some (true, ds) => -(min (ofDigits ds) (Nat.pow 2 31) : Nat)
  | some (false, ds) => (min (ofDigits ds) (Nat.pow 2 31) : Nat)

def double? (x : Numeral) : Option Double :=
  let (word, surplus) := fill 0 x.whole
  let (word, unused) := fill word x.fraction
  let e : Int := surplus - (x.fraction.length - unused : Nat)
  (scale word (e + exponentValue x.exponent)).map (signed x.negative)

/-- The integer that a number is, if it is one. Zero with a sign is none. -/
def integer? (x : Numeral) : Option Int :=
  if !x.fraction.isEmpty || x.exponent.isSome then none else
    let n := ofDigits x.whole
    if !x.negative then (if n < Nat.pow 2 64 then some n else none)
    else if 0 < n && n ≤ Nat.pow 2 63 then some (-n)
    else none

def node (x : Numeral) : Node :=
  match x.integer? with
  | some i => .integer i
  | none =>
    match x.double? with
    | some d => .real d
    | none => .unreadable

end Numeral

end Bindery.Json
