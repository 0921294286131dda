import Bindery.Target.Basic

/-!
Python: stubs with every declaration, and a bridge that binds every class at import time.
-/

namespace Bindery.Python

/-- A text between the quotes that need the fewest escapes: single ones if it holds double ones
only. -/
def stringLiteral (text : String) : String :=
  let escaped := Text.replaced "\\" "\\\\" text
  if text.contains '"' && !text.contains '\'' then "'" ++ escaped ++ "'"
  else "\"" ++ Text.replaced "\"" "\\\"" escaped ++ "\""

def keywords : List String := [
  "False", "None", "True", "and", "as", "assert", "async", "await", "break", "class",
  "continue", "def", "del", "elif", "else", "except", "finally", "for", "from", "global",
  "if", "import", "in", "is", "lambda", "nonlocal", "not", "or", "pass", "raise", "return",
  "try", "while", "with", "yield"]

/-- A keyword gets an underscore behind it. -/
def escapeKeyword (name : String) : String :=
  if keywords.contains name then name ++ "_" else name

def mapping : Mapping where
  primitives := [
    ("void", "None"),
    ("bool", "bool"),
    ("int", "int"),
    ("int64_t", "int"),
    ("int32_t", "int"),
    ("uint64_t", "int"),
    ("std::string", "str"),
    ("StringData", "str | None"),
    ("BinaryData", "bytes | None"),
    ("OwnedBinaryData", "bytes | None")]
  templates := [
    ("std::vector", Mapping.unary fun a => "list[" ++ a ++ "]"),
    ("util::Optional", Mapping.unary fun a => a ++ " | None"),
    ("std::shared_ptr", Mapping.unary id)]
  naming := .snakeCase
  readonly inner := "Annotated[" ++ inner ++ ", \"const\"]"
  function arguments result :=
    "Callable[[" ++ Text.joined ", " (arguments.map Prod.snd) ++ "], " ++ result ++ "]"
  annotate text modifiers :=
    "Annotated[" ++ text ++ ", " ++ stringLiteral (Text.joined " " modifiers) ++ "]"
  placeholder detail := "Annotated[Any, " ++ stringLiteral ("unknown: " ++ detail) ++ "]"

def identifiers : IdentifierRules := ⟨.snakeCase, escapeKeyword⟩

def postProcess : List String := ["black", "mypy"]

def indent : String := "    "

/-- A block needs a line. -/
def body (b : Block) : Block :=
  if b.lines.isEmpty then ⟨[indent ++ "pass"], b.issues⟩ else b

def constantLine : Constant → String
  | .named name => indent ++ identifiers.enumMember name ++ " = " ++ stringLiteral name
  | .flag name literal => indent ++ identifiers.enumMember name ++ " = " ++ literal

def enumerationBlock (name : String) (e : Enumeration) (constants : List Constant) : List String :=
  ["class " ++ entityIdentifier name ++ "(" ++ (if e.isFlag then "IntFlag" else "Enum") ++ "):"] ++
    (body (.ofLines (constants.map constantLine))).lines ++ [""]

def resolver (s : Spec) : Resolver := { spec := s, mapping }

def opaqueType (name : String) : List String := [
  "@final",
  "class " ++ entityIdentifier name ++ ":",
  indent ++ "\"\"\"Nominal marker type with no visible structure.\"\"\"",
  indent ++ "def __init__(self) -> NoReturn: ...",
  ""]

def typeAlias (r : Resolver) (name : String) (t : TypeExpr) : Block :=
  .ofResolved ((r.located (aliasLocation name)).resolve t) fun text =>
    entityIdentifier name ++ ": TypeAlias = " ++ text

def field (r : Resolver) (record name : String) (f : RecordField) : Block :=
  .ofResolved ((r.located (memberLocation "record" record name)).resolve f.type) fun text =>
    indent ++ identifiers.member name ++ ": " ++
      if f.isOptional then "NotRequired[" ++ text ++ "]" else text

def record (r : Resolver) (name : String) (x : Record) : Block :=
  .ofLine ("class " ++ entityIdentifier name ++ "(TypedDict):") ++
    body (Block.ofMap x.fields (field r name)) ++ .ofLine ""

/-- A signature; `receiver` names the parameter for the instance. -/
def signature (r : Resolver) (name : String) (receiver : Option String) (sig : Signature) : Block :=
  let inputs := r.resolveArguments sig.arguments
  let output := r.resolve sig.result
  let parameters := receiver.toList ++
    inputs.value.map fun (argument, type) => escapeKeyword argument ++ ": " ++ type
  ⟨[indent ++ "def " ++ identifiers.member name ++ "(" ++ Text.joined ", " parameters ++ ") -> " ++
    output.value ++ ": ..."], inputs.issues ++ output.issues⟩

/-- The signatures of a table. Several of one name are each marked as an overload. -/
def methods (r : Resolver) (kind owner : String) (isStatic : Bool) (table : MethodTable) : Block :=
  Block.ofMap table fun name overloads =>
    let r := r.located (memberLocation kind owner name)
    let marks := (if 1 < overloads.length then [indent ++ "@overload"] else []) ++
      (if isStatic then [indent ++ "@staticmethod"] else [])
    Block.concat (overloads.map fun sig =>
      .ofLines marks ++ signature r name (if isStatic then none else some "self") sig)

def property (r : Resolver) (owner name : String) (t : TypeExpr) : Block :=
  .ofResolved ((r.located (memberLocation "class" owner name)).resolve t) fun text =>
    indent ++ identifiers.member name ++ ": " ++ text

def sharedName (name : String) (c : Class) : List String :=
  match c.sharedName with
  | none => []
  | some shared => [entityIdentifier shared ++ ": TypeAlias = " ++ entityIdentifier name, ""]

def classBlock (r : Resolver) (name : String) (c : Class) : Block :=
  .ofLine ("class " ++ entityIdentifier name ++ ":") ++
    body (methods r "class" name true c.staticMethods ++
      Block.ofMap c.properties (property r name) ++
      methods r "class" name false c.methods) ++
    .ofLine "" ++ .ofLines (sharedName name c)

def interfaceBlock (r : Resolver) (name : String) (i : Interface) : Block :=
  .ofLine ("class " ++ entityIdentifier name ++ "(Protocol):") ++
    body (methods r "interface" name false i.methods) ++ .ofLine ""

def imports : List String := [
  "# " ++ generatedBanner,
  "from enum import Enum, IntFlag",
  "from typing import Annotated, Any, Callable, NoReturn, NotRequired, Protocol, " ++
    "TypeAlias, TypedDict, final, overload",
  ""]

/-- Every declaration except the enumerations, which come before. -/
def declarations (s : Spec) : Block :=
  let r := resolver s
  .ofLine "# Opaque types" ++ .ofLines (s.opaqueTypes.flatMap opaqueType) ++
    .ofLine "# Type aliases" ++ Block.ofMap s.aliases (typeAlias r) ++ .ofLine "" ++
    .ofLine "# Records" ++ Block.ofMap s.records (record r) ++
    .ofLine "# Classes" ++ Block.ofMap s.classes (classBlock r) ++
    .ofLine "# Interfaces" ++ Block.ofMap s.interfaces (interfaceBlock r)

def bridgeLine (name : String) : String :=
  entityIdentifier name ++ " = _bridge." ++ entityIdentifier name

def bridge (s : Spec) (bridgeModule : String) : List String :=
  ["# " ++ generatedBanner,
    "from importlib import import_module",
    "",
    "_bridge = import_module(" ++ stringLiteral bridgeModule ++ ")",
    ""] ++
  s.classes.keys.map bridgeLine ++
  ["",
    "__all__ = [" ++ Text.joined ", " (s.classes.keys.map fun name =>
      stringLiteral (entityIdentifier name)) ++ "]"]

/-- The lines for classes in the bridge are added at once: they do not depend on the
declarations. -/
def actions (s : Spec) (bridgeModule : String) : List Action :=
  let r := resolver s
  [.start "native.pyi" postProcess,
    .add "native.pyi" (.ofLines (imports ++ ["# Enums"]))] ++
  enumerationActions r "native.pyi" enumerationBlock s.enumerations.entries ++
  [.note (s.typeVisits.flatMap (Visit.log r)),
    .add "native.pyi" (declarations s),
    .start "native.py" postProcess,
    .add "native.py" (.ofLines (bridge s bridgeModule)),
    .close "native.pyi",
    .close "native.py"]

def target : Target where
  id := .python
  description := "Python type stubs with an extension-module bridge"
  bridgeModule := "_native"
  mapping
  identifiers
  actions

end Bindery.Python
