import Bindery.Target.Basic

/-!
TypeScript: constant enumerations in a unit of their own, declarations of all else, and a bridge
that exports every class at run time.
-/

namespace Bindery.TypeScript

/-- A comment that its text cannot end. -/
def comment (text : String) : String :=
  "/* " ++ Text.replaced "*/" "*\\/" text ++ " */"

def parameters (arguments : List (String × String)) : String :=
  Text.joined ", " (arguments.map fun (name, type) => name ++ ": " ++ type)

def mapping : Mapping where
  primitives := [
    ("void", "void"),
    ("bool", "boolean"),
    ("int", "number"),
    ("int64_t", "bigint"),
    ("int32_t", "number"),
    ("uint64_t", "bigint"),
    ("std::string", "string"),
    ("StringData", "string | null"),
    ("BinaryData", "ArrayBuffer | null"),
    ("OwnedBinaryData", "ArrayBuffer | null")]
  templates := [
    ("std::vector", Mapping.unary fun a => "(" ++ a ++ ")[]"),
    ("util::Optional", Mapping.unary fun a => "(" ++ a ++ ") | undefined"),
    ("std::shared_ptr", Mapping.unary id)]
  naming := .camelCase
  readonly inner := "Readonly<" ++ inner ++ ">"
  function arguments result := "(" ++ parameters arguments ++ ") => " ++ result
  annotate text modifiers := text ++ " " ++ comment (Text.joined " " modifiers)
  placeholder detail := "unknown " ++ comment detail

def identifiers : IdentifierRules := ⟨.camelCase, id⟩

def postProcess : List String := ["eslint", "typescript-checker"]

def constantLine : Constant → String
  | .named name => "  " ++ name ++ " = \"" ++ name ++ "\","
  | .flag name literal => "  " ++ name ++ " = " ++ literal ++ ","

def enumerationBlock (name : String) (_ : Enumeration) (constants : List Constant) : List String :=
  ["export const enum " ++ entityIdentifier name ++ " \x7b"] ++ constants.map constantLine ++
    ["\x7d;"]

/-- One line for each overload of each method. -/
def methods (r : Resolver) (kind owner word : String) (table : MethodTable) : Block :=
  Block.ofMap table fun name overloads =>
    let r := r.located (memberLocation kind owner name)
    Block.concat (overloads.map fun sig =>
      let inputs := r.resolveArguments sig.arguments
      let output := r.resolve sig.result
      ⟨["  " ++ word ++ identifiers.member name ++ "(" ++ parameters inputs.value ++ "): " ++
        output.value ++ ";"], inputs.issues ++ output.issues⟩)

def enumerationImports (s : Spec) : List String :=
  if s.enumerations.isEmpty then [] else
    let names := Text.joined ", " (s.enumerations.keys.map entityIdentifier)
    ["import \x7b " ++ names ++ " \x7d from \"./enums\";", "export \x7b " ++ names ++ " \x7d;"]

def resolver (s : Spec) : Resolver := { spec := s, mapping }

def opaqueType (name : String) : List String := [
  "/** Using an empty enum to express a nominal type */",
  "export declare enum " ++ entityIdentifier name ++ " \x7b\x7d"]

def typeAlias (r : Resolver) (name : String) (t : TypeExpr) : Block :=
  .ofResolved ((r.located (aliasLocation name)).resolve t) fun text =>
    "export type " ++ entityIdentifier name ++ " = " ++ text ++ ";"

def field (r : Resolver) (record name : String) (f : RecordField) : Block :=
  .ofResolved ((r.located (memberLocation "record" record name)).resolve f.type) fun text =>
    "  " ++ identifiers.member name ++ (if f.isOptional then "?" else "") ++ ": " ++ text ++ ";"

def record (r : Resolver) (name : String) (x : Record) : Block :=
  .ofLine ("export type " ++ entityIdentifier name ++ " = \x7b") ++
    Block.ofMap x.fields (field r name) ++ .ofLine "\x7d;"

def property (r : Resolver) (owner name : String) (t : TypeExpr) : Block :=
  .ofResolved ((r.located (memberLocation "class" owner name)).resolve t) fun text =>
    "  " ++ identifiers.member name ++ ": " ++ text ++ ";"

def sharedName (name : String) (c : Class) : List String :=
  (c.sharedName.map fun shared =>
    "export type " ++ entityIdentifier shared ++ " = " ++ entityIdentifier name ++ ";").toList

def classBlock (r : Resolver) (name : String) (c : Class) : Block :=
  .ofLine ("export class " ++ entityIdentifier name ++ " \x7b") ++
    methods r "class" name "static " c.staticMethods ++
    Block.ofMap c.properties (property r name) ++
    methods r "class" name "" c.methods ++
    .ofLine "\x7d" ++ .ofLines (sharedName name c)

def interfaceBlock (r : Resolver) (name : String) (i : Interface) : Block :=
  .ofLine ("export interface " ++ entityIdentifier name ++ " \x7b") ++
    methods r "interface" name "" i.methods ++ .ofLine "\x7d"

/-- Every declaration except the enumerations, which are imported. -/
def declarations (s : Spec) : Block :=
  let r := resolver s
  .ofLine ("// " ++ generatedBanner) ++
    .ofLines (enumerationImports s) ++
    .ofLine "// Opaque types" ++ .ofLines (s.opaqueTypes.flatMap opaqueType) ++
    .ofLine "// Type aliases" ++ Block.ofMap s.aliases (typeAlias r) ++
    .ofLine "// Records" ++ Block.ofMap s.records (record r) ++
    .ofLine "// Classes" ++ Block.ofMap s.classes (classBlock r) ++
    .ofLine "// Interfaces" ++ Block.ofMap s.interfaces (interfaceBlock r)

def bridgeLine (bridgeModule name : String) : String :=
  "export const \x7b " ++ entityIdentifier name ++ " \x7d = bindings(\"" ++ bridgeModule ++ "\");"

def bridge (s : Spec) (bridgeModule : String) : List String :=
  ["// " ++ generatedBanner, "import bindings from 'bindings';"] ++
    s.classes.keys.map (bridgeLine bridgeModule)

/-- Enumerations are closed before anything else is resolved. The lines for classes in the bridge
are added at once: they do not depend on the declarations. -/
def actions (s : Spec) (bridgeModule : String) : List Action :=
  let r := resolver s
  [.start "enums.ts" postProcess,
    .add "enums.ts" (.ofLines ["// " ++ generatedBanner, "// Enums"])] ++
  enumerationActions r "enums.ts" enumerationBlock s.enumerations.entries ++
  [.close "enums.ts",
    .start "native.js" postProcess,
    .add "native.js" (.ofLines (bridge s bridgeModule)),
    .start "native.d.ts" postProcess,
    .note (s.typeVisits.flatMap (Visit.log r)),
    .add "native.d.ts" (declarations s),
    .close "native.d.ts",
    .close "native.js"]

def target : Target where
  id := .typescript
  description := "TypeScript declarations with a Node.js bindings bridge"
  bridgeModule := "native.node"
  mapping
  identifiers
  actions

end Bindery.TypeScript
