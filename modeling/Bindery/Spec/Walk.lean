import Bindery.Spec.Basic

/-!
Walking through a spec: its entities and the types in them, in the order in which targets write
them.
-/

namespace Bindery

/-- A stop on the way. -/
inductive Visit where
  /-- An entity, before the types in it. -/
  | entity (kind : EntityKind) (name : String)
  /-- A type, with the place where it stands in the words of issues. -/
  | type (location : String) (type : TypeExpr)
  deriving Repr

/-- Where a member stands, in the words of issues. -/
def memberLocation (kind owner member : String) : String :=
  s!"{kind} {owner}.{member}"

def aliasLocation (name : String) : String :=
  s!"type alias {name}"

/-- The types of a signature: those of the arguments, and then the result. -/
def Signature.types (s : Signature) : List TypeExpr :=
  s.arguments.map Prod.snd ++ [s.result]

def MethodTable.visits (kind owner : String) (table : MethodTable) : List Visit :=
  table.entries.flatMap fun (name, overloads) =>
    (overloads.flatMap Signature.types).map (.type (memberLocation kind owner name))

def Record.visits (name : String) (r : Record) : List Visit :=
  .entity .record name ::
    r.fields.entries.map fun (field, f) => .type (memberLocation "record" name field) f.type

/-- Static methods come before properties, and those before the other methods. -/
def Class.visits (name : String) (c : Class) : List Visit :=
  .entity .objectClass name ::
    (c.staticMethods.visits "class" name ++
      (c.properties.entries.map fun (property, t) =>
        .type (memberLocation "class" name property) t) ++
      c.methods.visits "class" name)

def Interface.visits (name : String) (i : Interface) : List Visit :=
  .entity .interface name :: i.methods.visits "interface" name

namespace Spec

def enumerationVisits (s : Spec) : List Visit :=
  s.enumerations.keys.map (.entity .enumeration)

/-- Everything with a type in it. An alias is only its type. -/
def typeVisits (s : Spec) : List Visit :=
  (s.aliases.entries.map fun (name, t) => .type (aliasLocation name) t) ++
    (s.records.entries.flatMap fun (name, r) => r.visits name) ++
    (s.classes.entries.flatMap fun (name, c) => c.visits name) ++
    s.interfaces.entries.flatMap fun (name, i) => i.visits name

end Spec

end Bindery
