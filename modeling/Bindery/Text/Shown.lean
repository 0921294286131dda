import Bindery.Text.ShapeTable

/-!
A text as a message shows it: between quotes, on one line, with everything invisible spelt out.
-/

namespace Bindery.Text

/-- Whether a message spells the character out by its code point. -/
def isShapeless (c : Char) : Bool :=
  let n := c.toNat
  if n < 128 then n < 32 || n == 127 else shapeless.any fun (first, last) => first ≤ n && n ≤ last

def shownChar (c : Char) : List Char :=
  match c with
  | '\x00' => ['\\', '0']
  | '\t' => ['\\', 't']
  | '\r' => ['\\', 'r']
  | '\n' => ['\\', 'n']
  | '"' => ['\\', '"']
  | '\\' => ['\\', '\\']
  | c =>
    if isShapeless c then '\\' :: 'u' :: '\x7b' :: Nat.toDigits 16 c.toNat ++ ['\x7d'] else [c]

def shown (s : String) : String :=
  String.ofList ('"' :: s.toList.flatMap shownChar ++ ['"'])

end Bindery.Text
