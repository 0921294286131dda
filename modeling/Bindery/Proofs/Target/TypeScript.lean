import Bindery.Proofs.Target.Block
import Bindery.Proofs.Target.Statement

/-!
# TypeScript, statement by statement

`lines_declarations`: `native.d.ts` is the text of the statements of the spec.
-/

namespace Bindery.TypeScript

def writeMember : Member → String
  | .field name isOptional type =>
    "  " ++ identifiers.member name ++ (if isOptional then "?" else "") ++ ": " ++
      mapping.print type ++ ";"
  | .method name isStatic _ arguments result =>
    "  " ++ (if isStatic then "static " else "") ++ identifiers.member name ++ "(" ++
      parameters (mapping.printArguments arguments) ++ "): " ++ mapping.print result ++ ";"

def write : Statement → List String
  | .comment text => ["// " ++ text]
  | .blank => [""]
  | .words module words =>
    ["import \x7b " ++ Text.joined ", " words ++ " \x7d from \"" ++ module ++ "\";"]
  | .entities module names =>
    let names := Text.joined ", " (names.map entityIdentifier)
    ["import \x7b " ++ names ++ " \x7d from \"" ++ module ++ "\";",
      "export \x7b " ++ names ++ " \x7d;"]
  | .enumeration name _ constants =>
    ["export const enum " ++ entityIdentifier name ++ " \x7b"] ++ constants.map constantLine ++
      ["\x7d;"]
  | .opaqueType name =>
    ["/** Using an empty enum to express a nominal type */",
      "export declare enum " ++ entityIdentifier name ++ " \x7b\x7d"]
  | .typeAlias name type =>
    ["export type " ++ entityIdentifier name ++ " = " ++ mapping.print type ++ ";"]
  | .record name members =>
    ["export type " ++ entityIdentifier name ++ " = \x7b"] ++ members.map writeMember ++ ["\x7d;"]
  | .objectClass name members =>
    ["export class " ++ entityIdentifier name ++ " \x7b"] ++ members.map writeMember ++ ["\x7d"]
  | .interface name members =>
    ["export interface " ++ entityIdentifier name ++ " \x7b"] ++ members.map writeMember ++ ["\x7d"]

/-- The statements of `native.d.ts`. -/
def statements (s : Spec) : List Statement :=
  [.comment generatedBanner] ++
  (if s.enumerations.isEmpty then [] else [.entities "./enums" s.enumerations.keys]) ++
  [.comment "Opaque types"] ++ s.opaqueTypes.map .opaqueType ++
  [.comment "Type aliases"] ++ s.aliases.entries.map (.ofAlias s mapping) ++
  [.comment "Records"] ++ s.records.entries.map (.ofRecord s mapping) ++
  [.comment "Classes"] ++
  (s.classes.entries.flatMap fun entry =>
    .ofClass s mapping entry :: Statement.ofSharedName entry) ++
  [.comment "Interfaces"] ++ s.interfaces.entries.map (.ofInterface s mapping)

variable (s : Spec)

@[simp] theorem spec_resolver : (resolver s).spec = s := rfl

@[simp] theorem mapping_resolver : (resolver s).mapping = mapping := rfl

theorem lines_methods (kind owner : String) (isStatic : Bool) (table : MethodTable) :
    (methods (resolver s) kind owner (if isStatic then "static " else "") table).lines =
      (Member.ofMethods s mapping isStatic table).map writeMember := by
  simp [methods, Member.ofMethods, Member.ofMethod, List.map_flatMap, List.flatMap_map,
    writeMember, Resolver.value_resolve, Resolver.value_resolveArguments_eq_print,
    ← List.map_eq_flatMap, Function.comp_def]

@[simp] theorem write_comment (text : String) : write (.comment text) = ["// " ++ text] := rfl

@[simp] theorem write_opaqueType (name : String) : write (.opaqueType name) = opaqueType name := rfl

theorem lines_typeAlias (entry : String × TypeExpr) :
    (typeAlias (resolver s) entry.1 entry.2).lines = write (.ofAlias s mapping entry) := by
  simp [typeAlias, Statement.ofAlias, write, Resolver.value_resolve]

theorem lines_record (entry : String × Record) :
    (record (resolver s) entry.1 entry.2).lines = write (.ofRecord s mapping entry) := by
  simp [record, field, Statement.ofRecord, Member.ofField, write, writeMember,
    Resolver.value_resolve, ← List.map_eq_flatMap, Function.comp_def]

theorem lines_classBlock (entry : String × Class) :
    (classBlock (resolver s) entry.1 entry.2).lines =
      write (.ofClass s mapping entry) ++ (Statement.ofSharedName entry).flatMap write := by
  have hstatic := lines_methods s "class" entry.1 true entry.2.staticMethods
  have hmethods := lines_methods s "class" entry.1 false entry.2.methods
  simp only [if_true, Bool.false_eq_true, if_false] at hstatic hmethods
  cases hshared : entry.2.sharedName <;>
    simp [classBlock, property, sharedName, Statement.ofClass, Statement.ofSharedName, hshared,
      Member.ofProperty, write, writeMember, hstatic, hmethods, Resolver.value_resolve,
      Mapping.print, mapping, ← List.map_eq_flatMap, Function.comp_def]

theorem lines_interfaceBlock (entry : String × Interface) :
    (interfaceBlock (resolver s) entry.1 entry.2).lines =
      write (.ofInterface s mapping entry) := by
  have hmethods := lines_methods s "interface" entry.1 false entry.2.methods
  simp only [Bool.false_eq_true, if_false] at hmethods
  simp [interfaceBlock, Statement.ofInterface, write, hmethods]

theorem lines_declarations : (declarations s).lines = (statements s).flatMap write := by
  have himports : enumerationImports s =
      (if s.enumerations.isEmpty then []
        else [Statement.entities "./enums" s.enumerations.keys]).flatMap write := by
    cases h : s.enumerations.isEmpty <;> simp [enumerationImports, h, write, String.append_assoc]
  simp [declarations, statements, himports, lines_typeAlias, lines_record, lines_classBlock,
    lines_interfaceBlock, List.flatMap_map, List.flatMap_append, List.flatMap_assoc]

end Bindery.TypeScript
