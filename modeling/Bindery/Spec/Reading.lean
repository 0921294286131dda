import Bindery.Document.Tagged
import Bindery.Spec.Basic

/-!
Reading specs and types from documents.
-/

namespace Bindery

namespace TypeExpr

/-- The parts of a name. -/
structure NameParts where
  path : List String := []
  isConst : Bool := false
  indirection : Indirection := {}

/-- The parts of a template applied to types. -/
structure TemplateParts where
  path : List String := []
  arguments : List TypeExpr := []
  isConst : Bool := false

def nameSchema : Schema NameParts where
  title := "struct QualifiedName"
  fields := [
    .must "names" (Reading.list Reading.string) fun x path => { x with path },
    .may "isConst" Reading.bool fun x isConst => { x with isConst },
    .may "isPointer" Reading.bool fun x b => { x with indirection.pointer := b },
    .may "isReference" Reading.bool fun x b => { x with indirection.reference := b },
    .may "isRvalueReference" Reading.bool fun x b => { x with indirection.rvalueReference := b }]

def templateSchema (type : Reading → Node → Except Fault TypeExpr) : Schema TemplateParts where
  title := "struct TemplateInstance"
  fields := [
    .must "names" (Reading.list Reading.string) fun x path => { x with path },
    .may "templateArguments" (Reading.list type) fun x arguments => { x with arguments },
    .may "isConst" Reading.bool fun x isConst => { x with isConst }]

def argumentSchema (type : Reading → Node → Except Fault TypeExpr) :
    Schema (String × TypeExpr) where
  title := "struct ArgumentSpec"
  fields := [
    .must "name" Reading.string fun x name => (name, x.2),
    .must "type" type fun x t => (x.1, t)]

def signatureSchema (type : Reading → Node → Except Fault TypeExpr) : Schema Signature where
  title := "struct FunctionType"
  fields := [
    .may "arguments" (Reading.list ((argumentSchema type).read default)) fun x arguments =>
      { x with arguments },
    .must "return" type fun x result => { x with result },
    .may "isConst" Reading.bool fun x isConst => { x with isConst },
    .may "isNoExcept" Reading.bool fun x isNoExcept => { x with isNoExcept }]

/-- The kinds of a type, as documents write them. -/
def kinds : List String := ["qualified-name", "template-instance", "function"]

/-- Reads a type of a known kind. The number bounds the types inside each other. -/
def readKind (type : Reading → Node → Except Fault TypeExpr) (kind : Nat) (r : Reading)
    (node : Node) : Except Fault TypeExpr :=
  match kind with
  | 0 => (nameSchema.read {} r node).map fun x => .name x.path x.isConst x.indirection
  | 1 => ((templateSchema type).read {} r node).map fun x => .template x.path x.arguments x.isConst
  | _ => ((signatureSchema type).read default r node).map Signature.type

/-- Reads a type with at most so many containers inside each other. -/
def readWithin : Nat → Reading → Node → Except Fault TypeExpr
  | 0, r, node => throw (r.mismatch node "internally tagged enum TypeSpec")
  | n + 1, r, node =>
    r.tagged "internally tagged enum TypeSpec" "kind" kinds (readKind (readWithin n)) node

def read (r : Reading) (node : Node) : Except Fault TypeExpr :=
  readWithin (node.height + 1) r node

end TypeExpr

def Signature.read (r : Reading) (node : Node) : Except Fault Signature :=
  (TypeExpr.signatureSchema TypeExpr.read).read default r node

def Signature.readArgument (r : Reading) (node : Node) : Except Fault (String × TypeExpr) :=
  (TypeExpr.argumentSchema TypeExpr.read).read default r node

namespace MethodTable

def overloadSchema : Schema Signature where
  title := "struct MethodSpec"
  fields := [.must "sig" Signature.read fun _ s => s]

def read (r : Reading) (node : Node) : Except Fault MethodTable :=
  r.map (Reading.list (overloadSchema.read default)) node

end MethodTable

def RecordField.schema : Schema RecordField where
  title := "struct FieldSpec"
  fields := [
    .must "type" TypeExpr.read fun x type => { x with type },
    .may "default" (Reading.option Reading.string) fun x d => { x with default := d }]

def Record.schema : Schema Record where
  title := "struct RecordSpec"
  fields := [
    .may "fields" (Reading.map (RecordField.schema.read default)) fun x fields => { x with fields }]

def Class.schema : Schema Class where
  title := "struct ClassSpec"
  fields := [
    .may "methods" MethodTable.read fun x methods => { x with methods },
    .may "staticMethods" MethodTable.read fun x staticMethods => { x with staticMethods },
    .may "properties" (Reading.map TypeExpr.read) fun x properties => { x with properties },
    .may "sharedPtrWrapped" (Reading.option Reading.string) fun x sharedName =>
      { x with sharedName }]

def Interface.schema : Schema Interface where
  title := "struct InterfaceSpec"
  fields := [.may "methods" MethodTable.read fun x methods => { x with methods }]

namespace Members

/-- A finite number. -/
def readNumber (r : Reading) : Node → Except Fault Number
  | .integer i => pure (.integer i)
  | .real x => pure (.real x)
  | node => throw (r.mismatch node "a number")

/-- Members are told apart by what their text holds: a list of names, or else a table of values. -/
def read (r : Reading) (node : Node) : Except Fault Members := do
  r.hold node
  let r := r.afterHold
  match r.list Reading.string node with
  | .ok names => pure (.plain names)
  | .error _ =>
    match r.map (Reading.option readNumber) node with
    | .ok values => pure (.valued values)
    | .error _ => throw (.noVariant "EnumValues")

end Members

def Enumeration.schema : Schema Enumeration where
  title := "struct EnumSpec"
  fields := [
    .may "isFlag" Reading.bool fun x isFlag => { x with isFlag },
    .must "values" Members.read fun x members => { x with members }]

def Spec.schema : Schema Spec where
  title := "struct Spec"
  fields := [
    .may "primitives" (Reading.list Reading.string) fun x primitives => { x with primitives },
    .may "templates" (Reading.list Reading.string) fun x templates => { x with templates },
    .may "records" (Reading.map (Record.schema.read {})) fun x records => { x with records },
    .may "classes" (Reading.map (Class.schema.read {})) fun x classes => { x with classes },
    .may "interfaces" (Reading.map (Interface.schema.read {})) fun x interfaces =>
      { x with interfaces },
    .may "enums" (Reading.map (Enumeration.schema.read default)) fun x enumerations =>
      { x with enumerations },
    .may "typeAliases" (Reading.map TypeExpr.read) fun x aliases => { x with aliases },
    .may "opaqueTypes" (Reading.list Reading.string) fun x opaqueTypes => { x with opaqueTypes }]

def Spec.read (r : Reading) (node : Node) : Except Fault Spec :=
  Spec.schema.read {} r node

end Bindery
