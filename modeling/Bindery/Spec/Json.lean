import Bindery.Json.Printer
import Bindery.Spec.Basic

/-!
Specs and types as JSON values.
-/

namespace Bindery

mutual
def TypeExpr.toJson : TypeExpr → Json
  | .name path isConst indirection => .object [
      ("kind", .string "qualified-name"),
      ("names", .strings path),
      ("isConst", .bool isConst),
      ("isPointer", .bool indirection.pointer),
      ("isReference", .bool indirection.reference),
      ("isRvalueReference", .bool indirection.rvalueReference)]
  | .template path arguments isConst => .object [
      ("kind", .string "template-instance"),
      ("names", .strings path),
      ("templateArguments", .list (TypeExpr.listToJson arguments)),
      ("isConst", .bool isConst)]
  | .function arguments result isConst isNoExcept => .object [
      ("kind", .string "function"),
      ("arguments", .list (TypeExpr.argumentsToJson arguments)),
      ("return", result.toJson),
      ("isConst", .bool isConst),
      ("isNoExcept", .bool isNoExcept)]

def TypeExpr.listToJson : List TypeExpr → List Json
  | [] => []
  | t :: ts => t.toJson :: TypeExpr.listToJson ts

def TypeExpr.argumentsToJson : List (String × TypeExpr) → List Json
  | [] => []
  | (argument, t) :: rest =>
    .object [("name", .string argument), ("type", t.toJson)] :: TypeExpr.argumentsToJson rest
end

def OrderedMap.toJson {α : Type} (f : α → Json) (m : OrderedMap α) : Json :=
  .object (m.entries.map fun (name, value) => (name, f value))

def Number.toJson : Number → Json
  | .integer i => .integer i
  | .real x => .real x

def Signature.toJson (s : Signature) : Json :=
  .object [
    ("arguments", .list (TypeExpr.argumentsToJson s.arguments)),
    ("return", s.result.toJson),
    ("isConst", .bool s.isConst),
    ("isNoExcept", .bool s.isNoExcept)]

def MethodTable.toJson (table : MethodTable) : Json :=
  OrderedMap.toJson (fun overloads => .list (overloads.map fun s => .object [("sig", s.toJson)]))
    table

def RecordField.toJson (f : RecordField) : Json :=
  .object (("type", f.type.toJson) :: Json.optionalMember "default" .string f.default)

def Record.toJson (r : Record) : Json :=
  .object [("fields", r.fields.toJson RecordField.toJson)]

def Class.toJson (c : Class) : Json :=
  .object [
    ("methods", c.methods.toJson),
    ("staticMethods", c.staticMethods.toJson),
    ("properties", c.properties.toJson TypeExpr.toJson),
    ("sharedPtrWrapped", .ofOption .string c.sharedName)]

def Interface.toJson (i : Interface) : Json :=
  .object [("methods", i.methods.toJson)]

def Members.toJson : Members → Json
  | .plain names => .strings names
  | .valued values => values.toJson (.ofOption Number.toJson)

def Enumeration.toJson (e : Enumeration) : Json :=
  .object [("isFlag", .bool e.isFlag), ("values", e.members.toJson)]

def Spec.toJson (s : Spec) : Json :=
  .object [
    ("primitives", .strings s.primitives),
    ("templates", .strings s.templates),
    ("records", s.records.toJson Record.toJson),
    ("classes", s.classes.toJson Class.toJson),
    ("interfaces", s.interfaces.toJson Interface.toJson),
    ("enums", s.enumerations.toJson Enumeration.toJson),
    ("typeAliases", s.aliases.toJson TypeExpr.toJson),
    ("opaqueTypes", .strings s.opaqueTypes)]

end Bindery
