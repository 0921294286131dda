import Bindery.Output.Unit
import Bindery.Resolution.Basic

/-!
Blocks: lines of output with the issues that were met on the way to them.
-/

namespace Bindery

structure Block where
  lines : List String := []
  issues : List Issue := []
  deriving Repr, Inhabited

namespace Block

instance : Append Block := ⟨fun a b => ⟨a.lines ++ b.lines, a.issues ++ b.issues⟩⟩

def ofLines (lines : List String) : Block := ⟨lines, []⟩

def ofLine (line : String) : Block := ⟨[line], []⟩

/-- The line that `write` makes of something resolved. -/
def ofResolved {α : Type} (r : Resolved α) (write : α → String) : Block :=
  ⟨[write r.value], r.issues⟩

/-- Blocks one after the other. -/
def concat (blocks : List Block) : Block :=
  ⟨blocks.flatMap Block.lines, blocks.flatMap Block.issues⟩

/-- One block for each entry of a map, in its order. -/
def ofMap {α : Type} (m : OrderedMap α) (f : String → α → Block) : Block :=
  concat (m.entries.map fun (name, value) => f name value)

end Block

end Bindery
