import Bindery.Json.Basic
import Bindery.Resolution.Mapping
import Bindery.Spec.Basic

/-!
Coverage: whether a target has a word for everything that a spec says it uses.
-/

namespace Bindery

inductive CoverageWarning where
  | primitive (name : String)
  | template (name : String)
  deriving DecidableEq, Repr

namespace CoverageWarning

def text : CoverageWarning → String
  | .primitive name => "spec declares an unsupported primitive: \"" ++ name ++ "\""
  | .template name => "spec declares an unsupported template instance: \"" ++ name ++ "\""

def toJson : CoverageWarning → Json
  | .primitive name => .object [("kind", .string "primitive"), ("name", .string name)]
  | .template name => .object [("kind", .string "template"), ("name", .string name)]

end CoverageWarning

/-- One warning for every entry that the target lacks, primitives first. -/
def Spec.coverage (s : Spec) (m : Mapping) : List CoverageWarning :=
  (s.primitives.filter fun name => (m.primitive? name).isNone).map .primitive ++
  (s.templates.filter fun name => (m.template? name).isNone).map .template

end Bindery
