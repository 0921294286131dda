import Bindery.Document.Reading
import Bindery.Target.Basic

/-!
Reading the names of targets and of conventions.
-/

namespace Bindery

namespace TargetId

/-- The words for targets in documents, and what they mean. -/
def words : List (String × TargetId) :=
  [("ts", .typescript), ("typescript", .typescript), ("py", .python), ("python", .python)]

def read (r : Reading) (node : Node) : Except Fault TargetId := do
  let i ← r.word (words.map Prod.fst) node
  pure ((words[i]?.map Prod.snd).getD .typescript)

end TargetId

namespace NamingConvention

/-- Reads a convention by its name alone. -/
def ofName (name : String) : Except Fault NamingConvention := do
  let i ← Reading.json.variant (all.map tag) (.string name)
  pure (all[i]?.getD .camelCase)

end NamingConvention

end Bindery
