import Bindery.Json.Basic
import Bindery.Json.Quoted

/-!
The text of a value: on one line without blanks, or spread over lines with an indentation of two.
-/

namespace Bindery.Json

def integerText (i : Int) : List Char :=
  (toString i).toList

def realText (x : Double) : List Char :=
  (x.text .compact).toList

mutual
/-- The text of a value on one line. -/
def compactText : Json → List Char
  | .null => ['n', 'u', 'l', 'l']
  | .bool true => ['t', 'r', 'u', 'e']
  | .bool false => ['f', 'a', 'l', 's', 'e']
  | .integer i => integerText i
  | .real x => realText x
  | .string s => quoted s.toList
  | .list items => '[' :: compactItems items ++ [']']
  | .object members => '\x7b' :: compactMembers members ++ ['\x7d']

def compactItems : List Json → List Char
  | [] => []
  | [item] => compactText item
  | item :: items => compactText item ++ ',' :: compactItems items

def compactMembers : List (String × Json) → List Char
  | [] => []
  | [(name, value)] => quoted name.toList ++ ':' :: compactText value
  | (name, value) :: members =>
    quoted name.toList ++ ':' :: compactText value ++ ',' :: compactMembers members
end

def newline (depth : Nat) : List Char :=
  '\n' :: List.replicate (2 * depth) ' '

mutual
/-- The text of a value over several lines, inside `depth` containers. An empty container stays on
its line. -/
def indentedText (depth : Nat) : Json → List Char
  | .list [] => ['[', ']']
  | .list items => '[' :: indentedItems (depth + 1) items ++ newline depth ++ [']']
  | .object [] => ['\x7b', '\x7d']
  | .object members => '\x7b' :: indentedMembers (depth + 1) members ++ newline depth ++ ['\x7d']
  | .null => ['n', 'u', 'l', 'l']
  | .bool true => ['t', 'r', 'u', 'e']
  | .bool false => ['f', 'a', 'l', 's', 'e']
  | .integer i => integerText i
  | .real x => realText x
  | .string s => quoted s.toList

def indentedItems (depth : Nat) : List Json → List Char
  | [] => []
  | [item] => newline depth ++ indentedText depth item
  | item :: items => newline depth ++ indentedText depth item ++ ',' :: indentedItems depth items

def indentedMembers (depth : Nat) : List (String × Json) → List Char
  | [] => []
  | [(name, value)] => newline depth ++ quoted name.toList ++ ':' :: ' ' :: indentedText depth value
  | (name, value) :: members =>
    newline depth ++ quoted name.toList ++ ':' :: ' ' :: indentedText depth value ++
      ',' :: indentedMembers depth members
end

def compact (j : Json) : String :=
  String.ofList j.compactText

def indented (j : Json) : String :=
  String.ofList (j.indentedText 0)

end Bindery.Json
