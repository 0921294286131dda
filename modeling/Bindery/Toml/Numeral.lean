import Bindery.Document.Node
import Bindery.Text.Hex

/-!
Numbers in TOML: 64-bit integers in four bases, and doubles. An underscore may stand between two
digits.
-/

namespace Bindery.Toml

/-- The value of a digit in a base up to sixteen. -/
def digitIn? (base : Nat) (c : Char) : Option Nat :=
  (Text.hexValue? c).filter (· < base)

/-- Further digits after a first one. -/
def moreDigits (base : Nat) : List Char → Option (List Nat × List Char)
  | [] => some ([], [])
  | '_' :: c :: cs =>
    match digitIn? base c with
    | none => none
    | some d => (moreDigits base cs).map fun (ds, rest) => (d :: ds, rest)
  | c :: cs =>
    match digitIn? base c with
    | none => if c = '_' then none else some ([], c :: cs)
    | some d => (moreDigits base cs).map fun (ds, rest) => (d :: ds, rest)

def someDigits (base : Nat) : List Char → Option (List Nat × List Char)
  | [] => none
  | c :: cs =>
    match digitIn? base c with
    | none => none
    | some d => (moreDigits base cs).map fun (ds, rest) => (d :: ds, rest)

/-- A zero stands alone. -/
def wholeDigits : List Char → Option (List Nat × List Char)
  | '0' :: cs => some ([0], cs)
  | cs => someDigits 10 cs

def ofDigits (base : Nat) (ds : List Nat) : Nat :=
  ds.foldl (fun n d => n * base + d) 0

def integerNode? (i : Int) : Option Node :=
  if -(Nat.pow 2 63 : Int) ≤ i && i < Nat.pow 2 63 then some (.integer i) else none

/-- Too large a number is infinite, which only a negative one may be. -/
def realNode? (negative : Bool) (digits : Nat) (exponent : Int) : Option Node :=
  match Double.ofDecimal negative digits exponent with
  | some d => some (.real d)
  | none => if negative then some (.nonFinite "-inf") else none

def scanExponent (cs : List Char) : Option (Int × List Char) := do
  let (negative, cs) := match cs with
    | '-' :: cs => (true, cs)
    | '+' :: cs => (false, cs)
    | cs => (false, cs)
  let (ds, cs) ← someDigits 10 cs
  let n : Int := ofDigits 10 ds
  pure (if negative then -n else n, cs)

def isExponentMark (c : Char) : Bool := c = 'e' || c = 'E'

/-- A number without sign in a base other than ten. -/
def scanBased (base : Nat) (cs : List Char) : Option (Node × List Char) := do
  let (ds, cs) ← someDigits base cs
  let node ← integerNode? (ofDigits base ds)
  pure (node, cs)

/-- What follows the digits of a number: a fraction, an exponent, both or nothing. -/
def scanTail (negative : Bool) (whole : List Nat) : List Char → Option (Node × List Char)
  | '.' :: cs => do
    let (fraction, cs) ← someDigits 10 cs
    let (e, cs) ← match cs with
      | c :: after => if isExponentMark c then scanExponent after else some (0, cs)
      | [] => some (0, [])
    let node ← realNode? negative (ofDigits 10 (whole ++ fraction)) (e - fraction.length)
    pure (node, cs)
  | c :: cs =>
    if isExponentMark c then do
      let (e, cs) ← scanExponent cs
      let node ← realNode? negative (ofDigits 10 whole) e
      pure (node, cs)
    else do
      let n : Int := ofDigits 10 whole
      let node ← integerNode? (if negative then -n else n)
      pure (node, c :: cs)
  | [] => do
    let n : Int := ofDigits 10 whole
    let node ← integerNode? (if negative then -n else n)
    pure (node, [])

def scanMagnitude (negative : Bool) : List Char → Option (Node × List Char)
  | 'i' :: 'n' :: 'f' :: cs => some (.nonFinite (if negative then "-inf" else "inf"), cs)
  | 'n' :: 'a' :: 'n' :: cs => some (.nonFinite "NaN", cs)
  | cs => do
    let (whole, cs) ← wholeDigits cs
    scanTail negative whole cs

def scanNumber : List Char → Option (Node × List Char)
  | '+' :: cs => scanMagnitude false cs
  | '-' :: cs => scanMagnitude true cs
  | '0' :: 'x' :: cs => scanBased 16 cs
  | '0' :: 'o' :: cs => scanBased 8 cs
  | '0' :: 'b' :: cs => scanBased 2 cs
  | cs => scanMagnitude false cs

end Bindery.Toml
