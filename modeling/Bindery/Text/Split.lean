/-!
Cutting a text at a separator and putting it together again.
-/

namespace Bindery.Text

/-- Puts a character in front of the first piece. -/
def consFirst (c : Char) : List (List Char) → List (List Char)
  | [] => [[c]]
  | piece :: pieces => (c :: piece) :: pieces

/-- The pieces of a text between separators, where the first `skip` characters belong to a separator
that has been taken already. -/
def splitFrom (sep : List Char) : Nat → List Char → List (List Char)
  | _, [] => [[]]
  | skip + 1, _ :: cs => splitFrom sep skip cs
  | 0, c :: cs =>
    if sep.isPrefixOf (c :: cs) then [] :: splitFrom sep (sep.length - 1) cs
    else consFirst c (splitFrom sep 0 cs)

/-- The pieces between the separators, which are taken from the left and do not overlap. There is
always at least one piece. -/
def splitOn (sep s : List Char) : List (List Char) :=
  splitFrom sep 0 s

def join (sep : List Char) : List (List Char) → List Char
  | [] => []
  | [piece] => piece
  | piece :: pieces => piece ++ sep ++ join sep pieces

/-- Every occurrence of `old`, taken from the left, becomes `new`. -/
def replace (old new s : List Char) : List Char :=
  join new (splitOn old s)

/-- `splitOn` on strings. -/
def pieces (sep s : String) : List String :=
  (splitOn sep.toList s.toList).map String.ofList

/-- `join` on strings. -/
def joined (sep : String) (parts : List String) : String :=
  String.ofList (join sep.toList (parts.map String.toList))

/-- `replace` on strings. -/
def replaced (old new s : String) : String :=
  String.ofList (replace old.toList new.toList s.toList)

/-- Whether `sub` occurs in `s`. -/
def contains (sub : List Char) : List Char → Bool
  | [] => sub.isEmpty
  | c :: cs => sub.isPrefixOf (c :: cs) || contains sub cs

end Bindery.Text
