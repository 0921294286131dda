import Bindery.Document.Reading

/-!
A text that has been taken for a document.
-/

namespace Bindery

structure Document where
  format : Format
  root : Node
  /-- Nothing stands after the root that does not belong there. -/
  complete : Bool
  deriving DecidableEq, Repr

namespace Document

/-- Reads the root. What stands after it counts only once the root was fine. -/
def read {α : Type} (d : Document) (f : Reading → Node → Except Fault α) : Except Fault α := do
  let value ← f (if d.format = .json then .json else .toml) d.root
  if d.complete then pure value else throw .malformed

end Document

end Bindery
