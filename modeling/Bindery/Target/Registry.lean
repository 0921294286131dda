import Bindery.Target.Python
import Bindery.Target.TypeScript

/-!
The registered targets.
-/

namespace Bindery.Target

def ofId : TargetId → Target
  | .typescript => TypeScript.target
  | .python => Python.target

/-- Every target, in the order of the registry. -/
def registry : List Target :=
  TargetId.all.map ofId

end Bindery.Target
