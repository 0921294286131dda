import Bindery.Number.Basic
import Bindery.OrderedMap
import Bindery.Spec.TypeExpr

/-!
A spec: everything that an interface declares. The order of its entries is the order of the output.
-/

namespace Bindery

structure RecordField where
  type : TypeExpr
  /-- An expression of the native side, kept as it is. A field that has one may be left out. -/
  default : Option String := none
  deriving DecidableEq, Repr, Inhabited

def RecordField.isOptional (f : RecordField) : Bool := f.default.isSome

/-- Values without behaviour. -/
structure Record where
  fields : OrderedMap RecordField := ∅
  deriving DecidableEq, Repr, Inhabited

/-- Adds a field, or gives one a new type in its place. -/
def Record.addField (r : Record) (name : String) (f : RecordField) : Record :=
  { r with fields := r.fields.insert name f }

/-- The overloads of every method. -/
abbrev MethodTable := OrderedMap (List Signature)

namespace MethodTable

/-- Adds an overload behind those of that name. -/
def add (table : MethodTable) (name : String) (signature : Signature) : MethodTable :=
  table.update name [] (· ++ [signature])

end MethodTable

structure Class where
  methods : MethodTable := ∅
  staticMethods : MethodTable := ∅
  properties : OrderedMap TypeExpr := ∅
  /-- A second name, under which the class is owned jointly. -/
  sharedName : Option String := none
  deriving DecidableEq, Repr, Inhabited

namespace Class

def addMethod (c : Class) (name : String) (signature : Signature) : Class :=
  { c with methods := c.methods.add name signature }

def addStaticMethod (c : Class) (name : String) (signature : Signature) : Class :=
  { c with staticMethods := c.staticMethods.add name signature }

def addProperty (c : Class) (name : String) (type : TypeExpr) : Class :=
  { c with properties := c.properties.insert name type }

def withSharedName (c : Class) (name : String) : Class :=
  { c with sharedName := some name }

end Class

/-- Signatures that others fulfil. -/
structure Interface where
  methods : MethodTable := ∅
  deriving DecidableEq, Repr, Inhabited

def Interface.addMethod (i : Interface) (name : String) (signature : Signature) : Interface :=
  { i with methods := i.methods.add name signature }

inductive Members where
  | plain (names : List String)
  /-- A member may lack a value. -/
  | valued (values : OrderedMap (Option Number))
  deriving DecidableEq, Repr, Inhabited

def Members.memberNames : Members → List String
  | .plain names => names
  | .valued values => values.keys

/-- Named constants. The members of a flag enumeration are integers, those of a plain one are just
names. -/
structure Enumeration where
  isFlag : Bool := false
  members : Members
  deriving DecidableEq, Repr, Inhabited

namespace Enumeration

def plain (names : List String) : Enumeration :=
  ⟨false, .plain names⟩

def flags (values : List (String × Nat)) : Enumeration :=
  ⟨true, .valued (.ofList (values.map fun (name, n) => (name, some (.integer n))))⟩

def memberNames (e : Enumeration) : List String := e.members.memberNames

end Enumeration

structure Spec where
  primitives : List String := []
  templates : List String := []
  records : OrderedMap Record := ∅
  classes : OrderedMap Class := ∅
  interfaces : OrderedMap Interface := ∅
  enumerations : OrderedMap Enumeration := ∅
  aliases : OrderedMap TypeExpr := ∅
  opaqueTypes : List String := []
  deriving DecidableEq, Repr, Inhabited

inductive EntityKind where
  | record
  | objectClass
  | sharedName
  | interface
  | typeAlias
  | enumeration
  | opaqueType
  deriving DecidableEq, Repr

namespace EntityKind

/-- The kind in words. -/
def text : EntityKind → String
  | .record => "record"
  | .objectClass => "class"
  | .sharedName => "shared-ownership wrapper"
  | .interface => "interface"
  | .typeAlias => "type alias"
  | .enumeration => "enum"
  | .opaqueType => "opaque type"

/-- The kind as documents write it. -/
def tag : EntityKind → String
  | .record => "record"
  | .objectClass => "class"
  | .sharedName => "shared-ptr-wrapper"
  | .interface => "interface"
  | .typeAlias => "type-alias"
  | .enumeration => "enum"
  | .opaqueType => "opaque-type"

end EntityKind

namespace Spec

def sharedNames (s : Spec) : List String :=
  s.classes.values.filterMap Class.sharedName

/-- Every name that the spec declares, with what declares it. The second name of a class counts. -/
def declarations (s : Spec) : List (String × EntityKind) :=
  s.records.keys.map (·, .record) ++
  s.classes.keys.map (·, .objectClass) ++
  s.sharedNames.map (·, .sharedName) ++
  s.interfaces.keys.map (·, .interface) ++
  s.aliases.keys.map (·, .typeAlias) ++
  s.enumerations.keys.map (·, .enumeration) ++
  s.opaqueTypes.map (·, .opaqueType)

def declaredNames (s : Spec) : List String :=
  s.declarations.map Prod.fst

def declares (s : Spec) (name : String) : Bool :=
  s.declaredNames.contains name

def isPrimitive (s : Spec) (name : String) : Bool :=
  s.primitives.contains name

def isOpaque (s : Spec) (name : String) : Bool :=
  s.opaqueTypes.contains name

/-- How many entities the spec declares. A second name is no entity of its own. -/
def entityCount (s : Spec) : Nat :=
  s.records.size + s.classes.size + s.interfaces.size + s.enumerations.size + s.aliases.size +
    s.opaqueTypes.length

end Spec

end Bindery
