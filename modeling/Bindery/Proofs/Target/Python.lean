import Bindery.Proofs.Target.Block
import Bindery.Proofs.Target.Statement

/-!
# Python, statement by statement

`lines_statements`: `native.pyi` is the text of the statements of the spec.
-/

namespace Bindery.Python

/-- The lines below the head of a class; there is at least one. -/
def suite (lines : List String) : List String :=
  if lines.isEmpty then [indent ++ "pass"] else lines

def writeMember : Member → List String
  | .field name isOptional type =>
    [indent ++ identifiers.member name ++ ": " ++
      if isOptional then "NotRequired[" ++ mapping.print type ++ "]" else mapping.print type]
  | .method name isStatic isOverload arguments result =>
    let parameters := (if isStatic then [] else ["self"]) ++
      (mapping.printArguments arguments).map fun (argument, type) =>
        escapeKeyword argument ++ ": " ++ type
    (if isOverload then [indent ++ "@overload"] else []) ++
      (if isStatic then [indent ++ "@staticmethod"] else []) ++
      [indent ++ "def " ++ identifiers.member name ++ "(" ++ Text.joined ", " parameters ++
        ") -> " ++ mapping.print result ++ ": ..."]

/-- A class and the blank line behind it. -/
def writeClass (name bases : String) (members : List Member) : List String :=
  ["class " ++ entityIdentifier name ++ bases ++ ":"] ++ suite (members.flatMap writeMember) ++ [""]

def write : Statement → List String
  | .comment text => ["# " ++ text]
  | .blank => [""]
  | .words module words => ["from " ++ module ++ " import " ++ Text.joined ", " words]
  | .entities module names =>
    ["from " ++ module ++ " import " ++ Text.joined ", " (names.map entityIdentifier)]
  | .enumeration name isFlag constants =>
    ["class " ++ entityIdentifier name ++ "(" ++ (if isFlag then "IntFlag" else "Enum") ++ "):"] ++
      suite (constants.map constantLine) ++ [""]
  | .opaqueType name =>
    ["@final", "class " ++ entityIdentifier name ++ ":",
      indent ++ "\"\"\"Nominal marker type with no visible structure.\"\"\"",
      indent ++ "def __init__(self) -> NoReturn: ...", ""]
  | .typeAlias name type => [entityIdentifier name ++ ": TypeAlias = " ++ mapping.print type]
  | .record name members => writeClass name "(TypedDict)" members
  | .objectClass name members => writeClass name "" members
  | .interface name members => writeClass name "(Protocol)" members

/-- The statements of `native.pyi`. -/
def statements (s : Spec) : List Statement :=
  [.comment generatedBanner, .words "enum" ["Enum", "IntFlag"],
    .words "typing" ["Annotated", "Any", "Callable", "NoReturn", "NotRequired", "Protocol",
      "TypeAlias", "TypedDict", "final", "overload"],
    .blank, .comment "Enums"] ++ s.enumerations.entries.map .ofEnumeration ++
  [.comment "Opaque types"] ++ s.opaqueTypes.map .opaqueType ++
  [.comment "Type aliases"] ++ s.aliases.entries.map (.ofAlias s mapping) ++ [.blank] ++
  [.comment "Records"] ++ s.records.entries.map (.ofRecord s mapping) ++
  [.comment "Classes"] ++
  (s.classes.entries.flatMap fun entry =>
    .ofClass s mapping entry ::
      (Statement.ofSharedName entry).flatMap fun second => [second, .blank]) ++
  [.comment "Interfaces"] ++ s.interfaces.entries.map (.ofInterface s mapping)

variable (s : Spec)

@[simp] theorem spec_resolver : (resolver s).spec = s := rfl

@[simp] theorem mapping_resolver : (resolver s).mapping = mapping := rfl

@[simp] theorem lines_body (b : Block) : (body b).lines = suite b.lines := by
  rw [body, suite]
  split <;> rfl

theorem lines_methods (kind owner : String) (isStatic : Bool) (table : MethodTable) :
    (methods (resolver s) kind owner isStatic table).lines =
      (Member.ofMethods s mapping isStatic table).flatMap writeMember := by
  cases isStatic <;>
    simp [methods, signature, Member.ofMethods, Member.ofMethod, List.flatMap_assoc,
      List.flatMap_map, writeMember, Resolver.value_resolve,
      Resolver.value_resolveArguments_eq_print]

@[simp] theorem write_comment (text : String) : write (.comment text) = ["# " ++ text] := rfl

@[simp] theorem write_blank : write .blank = [""] := rfl

@[simp] theorem write_opaqueType (name : String) : write (.opaqueType name) = opaqueType name := rfl

theorem write_ofEnumeration (entry : String × Enumeration) :
    write (.ofEnumeration entry) = enumerationBlock entry.1 entry.2 entry.2.constants := by
  simp [Statement.ofEnumeration, write, enumerationBlock]

theorem lines_typeAlias (entry : String × TypeExpr) :
    (typeAlias (resolver s) entry.1 entry.2).lines = write (.ofAlias s mapping entry) := by
  simp [typeAlias, Statement.ofAlias, write, Resolver.value_resolve]

theorem lines_record (entry : String × Record) :
    (record (resolver s) entry.1 entry.2).lines = write (.ofRecord s mapping entry) := by
  simp [record, field, Statement.ofRecord, Member.ofField, write, writeClass, writeMember,
    Resolver.value_resolve, List.flatMap_map, String.append_assoc]

theorem lines_classBlock (entry : String × Class) :
    (classBlock (resolver s) entry.1 entry.2).lines =
      write (.ofClass s mapping entry) ++
        ((Statement.ofSharedName entry).flatMap fun second => [second, .blank]).flatMap write := by
  cases hshared : entry.2.sharedName <;>
    simp [classBlock, property, sharedName, Statement.ofClass, Statement.ofSharedName, hshared,
      Member.ofProperty, write, writeClass, writeMember, lines_methods, Resolver.value_resolve,
      Mapping.print, mapping, List.flatMap_map]

theorem lines_interfaceBlock (entry : String × Interface) :
    (interfaceBlock (resolver s) entry.1 entry.2).lines =
      write (.ofInterface s mapping entry) := by
  simp [interfaceBlock, Statement.ofInterface, write, writeClass, lines_methods,
    String.append_assoc]

theorem lines_statements :
    (statements s).flatMap write =
      imports ++ ["# Enums"] ++ s.enumerationBlocks enumerationBlock ++ (declarations s).lines := by
  have himports : imports ++ ["# Enums"] =
      [Statement.comment generatedBanner, .words "enum" ["Enum", "IntFlag"],
        .words "typing" ["Annotated", "Any", "Callable", "NoReturn", "NotRequired", "Protocol",
          "TypeAlias", "TypedDict", "final", "overload"],
        .blank, .comment "Enums"].flatMap write := by
    rfl
  simp only [statements, List.flatMap_append, ← himports]
  simp [declarations, Spec.enumerationBlocks, write_ofEnumeration, lines_typeAlias, lines_record,
    lines_classBlock, lines_interfaceBlock, List.flatMap_map, List.flatMap_assoc]

end Bindery.Python
