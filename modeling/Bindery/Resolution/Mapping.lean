import Bindery.Naming

/-!
The types of a target: what its primitives and templates are called, and how types are composed.
-/

namespace Bindery

/-- How a template is written, from the texts of its arguments. -/
structure TemplateRule where
  arity : Nat
  render : List String → String

structure Mapping where
  primitives : List (String × String)
  templates : List (String × TemplateRule)
  /-- How arguments are named. -/
  naming : NamingConvention
  /-- Refers to a declared entity. -/
  declared : String → String := entityIdentifier
  /-- Makes a type read-only. -/
  readonly : String → String
  /-- A function type from named arguments and a result. -/
  function : List (String × String) → String → String
  /-- Notes modifiers, of which there is at least one. -/
  annotate : String → List String → String
  /-- Stands where there is no type, and shows why. -/
  placeholder : String → String

namespace Mapping

def primitive? (m : Mapping) (name : String) : Option String :=
  m.primitives.lookup name

def template? (m : Mapping) (name : String) : Option TemplateRule :=
  m.templates.lookup name

/-- The templates of one argument, written by `render`. -/
def unary (render : String → String) : TemplateRule :=
  ⟨1, fun arguments => render (arguments.head?.getD "")⟩

end Mapping

end Bindery
