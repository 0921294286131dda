import Bindery.Text.CaseTable

/-!
Upper and lower case of single characters. A case mapping is context-free and may yield several
characters: the upper case of `ß` is `SS`.
-/

namespace Bindery.Text

/-- Whether a code point lies on a run of a table. -/
def onRun (n : Nat) : Nat × Nat × Nat → Bool
  | (first, last, step) => first ≤ n && n ≤ last && (n - first) % step == 0

def isUpper (c : Char) : Bool :=
  if c.toNat < 128 then c.isUpper else CaseTable.upper.any (onRun c.toNat)

def isLower (c : Char) : Bool :=
  if c.toNat < 128 then c.isLower else CaseTable.lower.any (onRun c.toNat)

/-- The mapping a table gives a code point; a code point without an entry stays itself. -/
def mapped (shifts : List (Nat × Nat × Nat × Int)) (long : List (Nat × List Nat)) (c : Char) :
    List Char :=
  match long.find? (·.1 == c.toNat) with
  | some (_, points) => points.map Char.ofNat
  | none =>
    match shifts.find? fun (first, last, step, _) => onRun c.toNat (first, last, step) with
    | some (_, _, _, shift) => [Char.ofNat (c.toNat + shift).toNat]
    | none => [c]

def toLower (c : Char) : List Char :=
  if c.toNat < 128 then [c.toLower] else mapped CaseTable.toLowerShift CaseTable.toLowerLong c

def toUpper (c : Char) : List Char :=
  if c.toNat < 128 then [c.toUpper] else mapped CaseTable.toUpperShift CaseTable.toUpperLong c

end Bindery.Text
