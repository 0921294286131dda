import Bindery.Diagnostic
import Bindery.Naming
import Bindery.Spec.Basic

/-!
Validation: whether a target can write a spec without making anything up and without two names
becoming one. All violations are found, in the order of the spec.
-/

namespace Bindery

inductive Violation where
  | flagWithoutValue (enumeration member : String)
  | flagNotInteger (enumeration member value : String)
  | plainWithValues (enumeration : String)
  | defaultNotAllowed (record field reason : String)
  | emptyTypeName (location : String)
  | duplicateDeclaration (name : String) (first second : EntityKind)
  | nameCollision (scope first second rendered : String)
  deriving DecidableEq, Repr

namespace Violation

def message : Violation → String
  | .flagWithoutValue e m => s!"flag enum `{e}` member `{m}` has no integer value"
  | .flagNotInteger e m v => s!"flag enum `{e}` member `{m}` has non-integer value `{v}`"
  | .plainWithValues e => s!"plain enum `{e}` declares explicit values"
  | .defaultNotAllowed r f reason => s!"field `{r}.{f}` declares a default but {reason}"
  | .emptyTypeName location => s!"empty type name in {location}"
  | .duplicateDeclaration name a b => s!"`{name}` is declared as both {a.text} and {b.text}"
  | .nameCollision scope a b rendered => s!"`{a}` and `{b}` in {scope} both become `{rendered}`"

def code : Violation → String
  | .flagWithoutValue .. => "bindspec::spec::flag_without_value"
  | .flagNotInteger .. => "bindspec::spec::flag_not_integer"
  | .plainWithValues .. => "bindspec::spec::plain_enum_values"
  | .defaultNotAllowed .. => "bindspec::spec::default_not_allowed"
  | .emptyTypeName .. => "bindspec::spec::empty_type_name"
  | .duplicateDeclaration .. => "bindspec::spec::duplicate_declaration"
  | .nameCollision .. => "bindspec::spec::name_collision"

def help : Violation → Option String
  | .flagWithoutValue .. => some "Give every member of a flag enum an explicit integer value"
  | .plainWithValues .. => some "Mark the enum with `isFlag: true` or list member names only"
  | .nameCollision .. =>
    some "Rename one of the members so they stay distinct after case conversion"
  | _ => none

def diagnostic (v : Violation) : Diagnostic :=
  { severity := .error, message := v.message, suggestions := v.help.toList }

end Violation

namespace Validation

/-- Goes through names with what they become. A name is reported if something else became the same
before it; the first with that rendering is the one it is reported with. -/
def collisionsAfter (scope : String) (render : String → String) :
    List (String × String) → List String → List Violation
  | _, [] => []
  | seen, name :: names =>
    let rendered := render name
    match seen.lookup rendered with
    | none => collisionsAfter scope render ((rendered, name) :: seen) names
    | some first =>
      if first = name then collisionsAfter scope render seen names
      else .nameCollision scope first name rendered :: collisionsAfter scope render seen names

def collisions (scope : String) (render : String → String) (names : List String) : List Violation :=
  collisionsAfter scope render [] names

/-- Reports the names that were declared before, each with its first kind. -/
def duplicatesAfter : List (String × EntityKind) → List (String × EntityKind) → List Violation
  | _, [] => []
  | seen, (name, kind) :: rest =>
    match seen.lookup name with
    | some first => .duplicateDeclaration name first kind :: duplicatesAfter seen rest
    | none => duplicatesAfter ((name, kind) :: seen) rest

/-- Every element once, where it first stands. -/
def distinctAfter (seen : List String) : List String → List String
  | [] => []
  | name :: names =>
    if seen.contains name then distinctAfter seen names
    else name :: distinctAfter (name :: seen) names

def ofDeclarations (s : Spec) : List Violation :=
  duplicatesAfter [] s.declarations ++
    collisions "top-level declarations" entityIdentifier (distinctAfter [] s.declaredNames)

/-- What is wrong with the value of a member of a flag enumeration. -/
def ofFlagValue (enumeration member : String) : Option Number → List Violation
  | none => [.flagWithoutValue enumeration member]
  | some value =>
    if value.literal?.isSome then [] else [.flagNotInteger enumeration member value.text]

def ofMemberValues (name : String) (e : Enumeration) : List Violation :=
  match e.members, e.isFlag with
  | .plain _, false => []
  | .plain members, true => members.map (.flagWithoutValue name)
  | .valued _, false => [.plainWithValues name]
  | .valued values, true => values.entries.flatMap fun (member, value) =>
    ofFlagValue name member value

def ofEnumeration (rules : IdentifierRules) (name : String) (e : Enumeration) : List Violation :=
  collisions s!"enum {name}" rules.enumMember e.memberNames ++ ofMemberValues name e

mutual
/-- One violation for each name without any text, at any depth. -/
def ofType (location : String) : TypeExpr → List Violation
  | .name path _ _ => if path.all String.isEmpty then [.emptyTypeName location] else []
  | .template path arguments _ =>
    (if path.all String.isEmpty then [.emptyTypeName location] else []) ++
      ofTypes location arguments
  | .function arguments result _ _ => ofArguments location arguments ++ ofType location result

def ofTypes (location : String) : List TypeExpr → List Violation
  | [] => []
  | t :: ts => ofType location t ++ ofTypes location ts

def ofArguments (location : String) : List (String × TypeExpr) → List Violation
  | [] => []
  | (_, t) :: rest => ofType location t ++ ofArguments location rest
end

/-- Why a field of that type can have no default. -/
def defaultObstacle (s : Spec) : TypeExpr → Option String
  | .function .. => some "its type is a function"
  | .name path _ _ =>
    if s.isOpaque (joinPath path) then
      some ("`" ++ joinPath path ++ "` is an opaque type and cannot be constructed")
    else none
  | .template .. => none

def ofField (s : Spec) (record name : String) (f : RecordField) : List Violation :=
  ofType s!"record {record}.{name}" f.type ++
    match f.default, defaultObstacle s f.type with
    | some _, some reason => [.defaultNotAllowed record name reason]
    | _, _ => []

def ofRecord (s : Spec) (rules : IdentifierRules) (name : String) (r : Record) : List Violation :=
  (r.fields.entries.flatMap fun (fieldName, f) => ofField s name fieldName f) ++
    collisions s!"record {name}" rules.member r.fields.keys

def ofSignature (rules : IdentifierRules) (location : String) (sig : Signature) : List Violation :=
  ofArguments location sig.arguments ++ ofType location sig.result ++
    collisions s!"arguments of {location}" rules.member (sig.arguments.map Prod.fst)

def ofMethods (rules : IdentifierRules) (scope : String) (table : MethodTable) : List Violation :=
  table.entries.flatMap fun (name, overloads) =>
    overloads.flatMap (ofSignature rules s!"{scope}.{name}")

/-- Properties and methods of an instance share one namespace, static methods have their own. -/
def ofClass (rules : IdentifierRules) (name : String) (c : Class) : List Violation :=
  let scope := s!"class {name}"
  let staticScope := s!"class {name} (static)"
  (c.properties.entries.flatMap fun (property, t) => ofType s!"class {name}.{property}" t) ++
    ofMethods rules scope c.methods ++
    ofMethods rules staticScope c.staticMethods ++
    collisions scope rules.member (c.properties.keys ++ c.methods.keys) ++
    collisions staticScope rules.member c.staticMethods.keys

def ofInterface (rules : IdentifierRules) (name : String) (i : Interface) : List Violation :=
  let scope := s!"interface {name}"
  ofMethods rules scope i.methods ++ collisions scope rules.member i.methods.keys

end Validation

/-- All violations of a spec under the identifiers that `rules` make. -/
def Spec.validate (s : Spec) (rules : IdentifierRules) : List Violation :=
  Validation.ofDeclarations s ++
  (s.enumerations.entries.flatMap fun (name, e) => Validation.ofEnumeration rules name e) ++
  (s.records.entries.flatMap fun (name, r) => Validation.ofRecord s rules name r) ++
  (s.classes.entries.flatMap fun (name, c) => Validation.ofClass rules name c) ++
  (s.interfaces.entries.flatMap fun (name, i) => Validation.ofInterface rules name i) ++
  (s.aliases.entries.flatMap fun (name, t) => Validation.ofType s!"type alias {name}" t)

end Bindery
