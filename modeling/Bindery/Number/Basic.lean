import Bindery.Number.Shortest

/-!
Numbers as documents give them: integers, which keep every digit, and doubles.
-/

namespace Bindery

inductive Number where
  | integer (value : Int)
  | real (value : Double)
  deriving DecidableEq, Repr

namespace Number

/-- The text of an integer; a double has none, even if it is whole. -/
def literal? : Number → Option String
  | .integer i => some (toString i)
  | .real _ => none

def text : Number → String
  | .integer i => toString i
  | .real x => x.text .compact

end Number

end Bindery
