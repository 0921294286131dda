import Bindery.Proofs.Generation.Emission
import Bindery.Proofs.Generation.Entities

/-!
# Members in the output

`ofSpec_members`: every field, property, overload and constant has its line in the output, and each
has one only. Marks stand where the spec asks for them, and identifiers are those of the target.
-/

namespace Bindery

/-- Lines written one entry after the other are blocks, one for each entry. -/
theorem exists_blocks {α : Type} {p : α → List String → Prop} {write : α → List String}
    {entries : List α} (h : ∀ entry ∈ entries, p entry (write entry)) :
    ∃ blocks, entries.flatMap write = List.flatten blocks ∧ List.Forall₂ p entries blocks := by
  refine ⟨entries.map write, List.flatMap_def, ?_⟩
  rw [List.forall₂_map_right_iff, List.forall₂_same]
  exact h

/-- An overload, with the name of its method and the number of overloads of that name. -/
structure Overload where
  method : String
  count : Nat
  signature : Signature

def MethodTable.overloads (table : MethodTable) : List Overload :=
  table.entries.flatMap fun entry => entry.2.map fun sig => ⟨entry.1, entry.2.length, sig⟩

namespace TargetId

/-! ## How a target writes members -/

/-- The identifier of a field, a method, a property or an argument. -/
def identifier (id : TargetId) (name : String) : String :=
  (Target.ofId id).identifiers.member name

/-- What a type is resolved to. -/
def typeText (id : TargetId) (s : Spec) (t : TypeExpr) : String :=
  (Resolver.resolve { spec := s, mapping := (Target.ofId id).mapping } t).value

/-- A field or a property that is always there. -/
def memberLine : TargetId → String → String → String
  | .typescript, identifier, type => "  " ++ identifier ++ ": " ++ type ++ ";"
  | .python, identifier, type => "    " ++ identifier ++ ": " ++ type

/-- A field that may be left out. -/
def optionalLine : TargetId → String → String → String
  | .typescript, identifier, type => "  " ++ identifier ++ "?" ++ ": " ++ type ++ ";"
  | .python, identifier, type => "    " ++ identifier ++ ": " ++ ("NotRequired[" ++ type ++ "]")

def signatureLine : TargetId → Bool → String → List (String × String) → String → String
  | .typescript, isStatic, identifier, parameters, result =>
    "  " ++ (if isStatic then "static " else "") ++ identifier ++ "(" ++
      Text.joined ", " (parameters.map fun p => p.1 ++ ": " ++ p.2) ++ "): " ++ result ++ ";"
  | .python, isStatic, identifier, parameters, result =>
    "    " ++ "def " ++ identifier ++ "(" ++
      Text.joined ", " ((if isStatic then [] else ["self"]) ++
        parameters.map fun p => p.1 ++ ": " ++ p.2) ++ ") -> " ++ result ++ ": ..."

/-- A constant with its value. -/
def assignmentLine : TargetId → String → String → String
  | .typescript, identifier, value => "  " ++ identifier ++ " = " ++ value ++ ","
  | .python, identifier, value => "    " ++ identifier ++ " = " ++ value

/-- What a constant has as its value: a plain one its name, a flag its literal. -/
def constantValue : TargetId → Constant → String
  | .typescript, .named name => "\"" ++ name ++ "\""
  | .python, .named name => Python.stringLiteral name
  | _, .flag _ literal => literal

/-- A record around the lines of its fields. -/
def recordBlock : TargetId → String → List String → List String
  | .typescript, name, lines =>
    ("export type " ++ entityIdentifier name ++ " = \x7b") :: (lines ++ ["\x7d;"])
  | .python, name, lines =>
    ("class " ++ entityIdentifier name ++ "(TypedDict):") :: (Python.suite lines ++ [""])

/-- A class around the lines of its members; a second name comes behind it. -/
def classBlock : TargetId → String → Class → List String → List String
  | .typescript, name, c, lines =>
    ("export class " ++ entityIdentifier name ++ " \x7b") ::
      (lines ++ "\x7d" :: TypeScript.sharedName name c)
  | .python, name, c, lines =>
    ("class " ++ entityIdentifier name ++ ":") ::
      (Python.suite lines ++ "" :: Python.sharedName name c)

def interfaceBlock : TargetId → String → List String → List String
  | .typescript, name, lines =>
    ("export interface " ++ entityIdentifier name ++ " \x7b") :: (lines ++ ["\x7d"])
  | .python, name, lines =>
    ("class " ++ entityIdentifier name ++ "(Protocol):") :: (Python.suite lines ++ [""])

/-- An enumeration around the lines of its constants. -/
def constantsBlock : TargetId → String → Bool → List String → List String
  | .typescript, name, _, lines =>
    ("export const enum " ++ entityIdentifier name ++ " \x7b") :: (lines ++ ["\x7d;"])
  | .python, name, isFlag, lines =>
    ("class " ++ entityIdentifier name ++ "(" ++ (if isFlag then "IntFlag" else "Enum") ++ "):") ::
      (Python.suite lines ++ [""])

/-! ## One line for each member -/

variable (id : TargetId) (s : Spec)

/-- The line of a field, which is marked exactly if the field has a default. -/
structure FieldLine (entry : String × RecordField) (line : String) : Prop where
  marked : line = id.optionalLine (id.identifier entry.1) (id.typeText s entry.2.type) ↔
    entry.2.default.isSome = true
  unmarked : line = id.memberLine (id.identifier entry.1) (id.typeText s entry.2.type) ↔
    entry.2.default = none

/-- The lines of an overload: one for the signature, and before it the marks that Python asks
for, each once. -/
def SignatureLines (isStatic : Bool) (o : Overload) (lines : List String) : Prop :=
  ∃ marks : List String, marks.Nodup ∧
    (∀ mark, mark ∈ marks ↔ id = .python ∧
      (mark = "    @overload" ∧ 1 < o.count ∨ mark = "    @staticmethod" ∧ isStatic = true)) ∧
    lines = marks ++ [id.signatureLine isStatic (id.identifier o.method)
      (o.signature.arguments.map fun a => (id.identifier a.1, id.typeText s a.2))
      (id.typeText s o.signature.result)]

def RecordLines (entry : String × Record) (block : List String) : Prop :=
  ∃ lines, List.Forall₂ (id.FieldLine s) entry.2.fields.entries lines ∧
    block = id.recordBlock entry.1 lines

def ClassLines (entry : String × Class) (block : List String) : Prop :=
  ∃ statics instances,
    List.Forall₂ (id.SignatureLines s true) entry.2.staticMethods.overloads statics ∧
    List.Forall₂ (id.SignatureLines s false) entry.2.methods.overloads instances ∧
    block = id.classBlock entry.1 entry.2 (statics.flatten ++
      (entry.2.properties.entries.map fun p =>
        id.memberLine (id.identifier p.1) (id.typeText s p.2)) ++
      instances.flatten)

def InterfaceLines (entry : String × Interface) (block : List String) : Prop :=
  ∃ methods, List.Forall₂ (id.SignatureLines s false) entry.2.methods.overloads methods ∧
    block = id.interfaceBlock entry.1 methods.flatten

def EnumerationLines (entry : String × Enumeration) (block : List String) : Prop :=
  ∃ lines, List.Forall₂ (fun member line => ∃ value,
      line = id.assignmentLine ((Target.ofId id).identifiers.enumMember member) value)
        entry.2.memberNames lines ∧
    block = id.constantsBlock entry.1 entry.2.isFlag lines

/-! ## The lines of a member -/

theorem typeText_eq_print (t : TypeExpr) :
    id.typeText s t = (Target.ofId id).mapping.print (t.shape s (Target.ofId id).mapping) :=
  Resolver.value_resolve _ t

/-- Arguments go by the names of the convention, before reserved words are escaped. -/
theorem printArguments_shapeArguments (arguments : List (String × TypeExpr)) :
    (Target.ofId id).mapping.printArguments
        (TypeExpr.shapeArguments s (Target.ofId id).mapping arguments) =
      arguments.map fun a => ((Target.ofId id).mapping.naming.apply a.1, id.typeText s a.2) := by
  rw [TypeExpr.shapeArguments_eq_map, Mapping.printArguments_eq_map, List.map_map]
  exact List.map_congr_left fun a _ => Prod.ext rfl (typeText_eq_print id s a.2).symm

/-- The lines of a member, which are one only in TypeScript. -/
def writeMember : TargetId → Member → List String
  | .typescript, m => [TypeScript.writeMember m]
  | .python, m => Python.writeMember m

theorem flatMap_writeMember_typescript (members : List Member) :
    members.flatMap typescript.writeMember = members.map TypeScript.writeMember :=
  List.map_eq_flatMap.symm

theorem writeMember_ofField (entry : String × RecordField) :
    id.writeMember (.ofField s (Target.ofId id).mapping entry) =
      [(if entry.2.isOptional then id.optionalLine else id.memberLine)
        (id.identifier entry.1) (id.typeText s entry.2.type)] := by
  rw [typeText_eq_print]
  cases id <;> cases h : entry.2.isOptional <;>
    simp [writeMember, Member.ofField, h, TypeScript.writeMember, Python.writeMember, memberLine,
      optionalLine, identifier, Target.ofId, TypeScript.target, Python.target, Python.indent]

theorem writeMember_ofProperty (entry : String × TypeExpr) :
    id.writeMember (.ofProperty s (Target.ofId id).mapping entry) =
      [id.memberLine (id.identifier entry.1) (id.typeText s entry.2)] := by
  rw [typeText_eq_print]
  cases id <;>
    simp [writeMember, Member.ofProperty, TypeScript.writeMember, Python.writeMember, memberLine,
      identifier, Target.ofId, TypeScript.target, Python.target, Python.indent]

theorem optionalLine_ne_memberLine (identifier type : String) :
    id.optionalLine identifier type ≠ id.memberLine identifier type := by
  intro h
  have hlength := congrArg String.length h
  cases id with
  | typescript =>
      simp only [optionalLine, memberLine, String.length_append] at hlength
      have hmark : "?".length = 1 := rfl
      omega
  | python =>
      simp only [optionalLine, memberLine, String.length_append] at hlength
      have hend : "]".length = 1 := rfl
      omega

theorem fieldLine_ite (entry : String × RecordField) :
    id.FieldLine s entry ((if entry.2.isOptional then id.optionalLine else id.memberLine)
      (id.identifier entry.1) (id.typeText s entry.2.type)) := by
  have hne := id.optionalLine_ne_memberLine (id.identifier entry.1)
    (id.typeText s entry.2.type)
  cases h : entry.2.default with
  | none => constructor <;> simp [RecordField.isOptional, h, hne.symm]
  | some value => constructor <;> simp [RecordField.isOptional, h, hne]

end TargetId

namespace Member

/-- The member of an overload. -/
def ofOverload (s : Spec) (m : Mapping) (isStatic : Bool) (o : Overload) : Member :=
  .method o.method isStatic (1 < o.count) (TypeExpr.shapeArguments s m o.signature.arguments)
    (o.signature.result.shape s m)

theorem ofMethods_eq (s : Spec) (m : Mapping) (isStatic : Bool) (table : MethodTable) :
    ofMethods s m isStatic table = table.overloads.map (ofOverload s m isStatic) := by
  simp only [ofMethods, MethodTable.overloads, List.map_flatMap, List.map_map]
  rfl

end Member

namespace TargetId

variable (id : TargetId) (s : Spec)

theorem signatureLines_ofOverload (isStatic : Bool) (o : Overload) :
    id.SignatureLines s isStatic o
      (id.writeMember (.ofOverload s (Target.ofId id).mapping isStatic o)) := by
  have harguments := id.printArguments_shapeArguments s o.signature.arguments
  have hresult := (id.typeText_eq_print s o.signature.result).symm
  cases id with
  | typescript =>
      refine ⟨[], List.nodup_nil, by simp, ?_⟩
      simp only [Target.ofId, TypeScript.target] at harguments hresult
      simp only [writeMember, TypeScript.writeMember, Member.ofOverload, Target.ofId,
        TypeScript.target, harguments, hresult]
      rfl
  | python =>
      refine ⟨(if 1 < o.count then ["    @overload"] else []) ++
        (if isStatic then ["    @staticmethod"] else []), ?_, fun mark => ?_, ?_⟩
      · split <;> split <;> decide
      · split <;> split <;> simp_all
      · have hoverload : Python.indent ++ "@overload" = "    @overload" := by decide
        have hstatic : Python.indent ++ "@staticmethod" = "    @staticmethod" := by decide
        have hidentifier (name : String) : Python.escapeKeyword (Python.mapping.naming.apply name) =
            identifier .python name := rfl
        simp only [Target.ofId, Python.target] at harguments hresult
        simp only [writeMember, Python.writeMember, Member.ofOverload, Target.ofId, Python.target,
          harguments, hresult, List.map_map, Function.comp_def, decide_eq_true_eq, hoverload,
          hstatic, hidentifier, signatureLine]
        rfl

theorem exists_signatureLines (isStatic : Bool) (table : MethodTable) :
    ∃ chunks,
      (Member.ofMethods s (Target.ofId id).mapping isStatic table).flatMap id.writeMember =
        List.flatten chunks ∧
      List.Forall₂ (id.SignatureLines s isStatic) table.overloads chunks := by
  rw [Member.ofMethods_eq, List.flatMap_map]
  exact exists_blocks fun o _ => id.signatureLines_ofOverload s isStatic o

/-! ## The lines of an entity -/

theorem write_record (name : String) (members : List Member) :
    id.write (.record name members) = id.recordBlock name (members.flatMap id.writeMember) := by
  cases id with
  | typescript => simp [write, TypeScript.write, recordBlock, flatMap_writeMember_typescript]
  | python =>
      have hhead : "class " ++ entityIdentifier name ++ "(TypedDict)" ++ ":" =
          "class " ++ entityIdentifier name ++ "(TypedDict):" := by
        rw [String.append_assoc]
        rfl
      simp only [write, Python.write, Python.writeClass, hhead]
      rfl

theorem write_interface (name : String) (members : List Member) :
    id.write (.interface name members) =
      id.interfaceBlock name (members.flatMap id.writeMember) := by
  cases id with
  | typescript => simp [write, TypeScript.write, interfaceBlock, flatMap_writeMember_typescript]
  | python =>
      have hhead : "class " ++ entityIdentifier name ++ "(Protocol)" ++ ":" =
          "class " ++ entityIdentifier name ++ "(Protocol):" := by
        rw [String.append_assoc]
        rfl
      simp only [write, Python.write, Python.writeClass, hhead]
      rfl

theorem entityLines_objectClass (name : String) (c : Class) :
    id.entityLines s (.objectClass name c) = id.classBlock name c
      ((Member.ofMethods s (Target.ofId id).mapping true c.staticMethods ++
        c.properties.entries.map (Member.ofProperty s (Target.ofId id).mapping) ++
        Member.ofMethods s (Target.ofId id).mapping false c.methods).flatMap id.writeMember) := by
  cases id with
  | typescript =>
      have hshared : (Statement.ofSharedName (name, c)).flatMap TypeScript.write =
          TypeScript.sharedName name c := by
        cases h : c.sharedName <;>
          simp [Statement.ofSharedName, TypeScript.sharedName, h, TypeScript.write, Mapping.print,
            TypeScript.mapping]
      rw [flatMap_writeMember_typescript, entityLines, statementsOf, List.flatMap_cons]
      simp only [write, hshared, TypeScript.write, Statement.ofClass, classBlock,
        List.cons_append, List.append_assoc, List.nil_append]
      rfl
  | python =>
      have hshared : ((Statement.ofSharedName (name, c)).flatMap fun second =>
          [second, .blank]).flatMap Python.write = Python.sharedName name c := by
        cases h : c.sharedName <;>
          simp [Statement.ofSharedName, Python.sharedName, h, Python.write, Mapping.print,
            Python.mapping]
      have hhead : "class " ++ entityIdentifier name ++ "" ++ ":" =
          "class " ++ entityIdentifier name ++ ":" := by
        rw [String.append_empty]
      rw [entityLines, statementsOf, List.flatMap_cons]
      simp only [write, hshared, Python.write, Python.writeClass, Statement.ofClass, classBlock,
        hhead, List.cons_append, List.append_assoc, List.nil_append]
      rfl

theorem recordLines_entityLines (entry : String × Record) :
    id.RecordLines s entry (id.entityLines s (.record entry.1 entry.2)) := by
  refine ⟨(entry.2.fields.entries.map (Member.ofField s (Target.ofId id).mapping)).flatMap
    id.writeMember, ?_, ?_⟩
  · simp only [List.flatMap_map, writeMember_ofField, ← List.map_eq_flatMap]
    rw [List.forall₂_map_right_iff, List.forall₂_same]
    exact fun field _ => id.fieldLine_ite s field
  · rw [← write_record, entityLines, statementsOf, List.flatMap_singleton]
    rfl

theorem classLines_entityLines (entry : String × Class) :
    id.ClassLines s entry (id.entityLines s (.objectClass entry.1 entry.2)) := by
  obtain ⟨statics, hstatic, hstatics⟩ :=
    id.exists_signatureLines s true entry.2.staticMethods
  obtain ⟨instances, hinstance, hinstances⟩ :=
    id.exists_signatureLines s false entry.2.methods
  refine ⟨statics, instances, hstatics, hinstances, ?_⟩
  rw [entityLines_objectClass, List.flatMap_append, List.flatMap_append, hstatic, hinstance,
    List.flatMap_map]
  simp only [writeMember_ofProperty, ← List.map_eq_flatMap]

theorem interfaceLines_entityLines (entry : String × Interface) :
    id.InterfaceLines s entry (id.entityLines s (.interface entry.1 entry.2)) := by
  obtain ⟨methods, hlines, hmethods⟩ := id.exists_signatureLines s false entry.2.methods
  refine ⟨methods, hmethods, ?_⟩
  rw [← hlines, ← write_interface, entityLines, statementsOf, List.flatMap_singleton]
  rfl

theorem constantLine_eq (c : Constant) :
    id.constantLine c =
      id.assignmentLine ((Target.ofId id).identifiers.enumMember c.name) (id.constantValue c) := by
  cases c with
  | named name =>
      cases id with
      | typescript =>
          have hleft : " = \"" = " = " ++ "\"" := by decide
          have hright : "\"," = "\"" ++ "," := by decide
          simp only [constantLine, TypeScript.constantLine, hleft, hright, assignmentLine,
            constantValue, String.append_assoc]
          rfl
      | python => rfl
  | flag name literal => cases id <;> rfl

theorem enumerationBlock_eq (name : String) (e : Enumeration) (constants : List Constant) :
    id.enumerationBlock name e constants =
      id.constantsBlock name e.isFlag (constants.map id.constantLine) := by
  cases id with
  | typescript => rfl
  | python =>
      simp only [enumerationBlock, Python.enumerationBlock, Python.lines_body,
        Block.lines_ofLines]
      rfl

theorem enumerationLines_enumerationBlock {entry : String × Enumeration} (h : entry.2.ValuesFit) :
    id.EnumerationLines entry (id.enumerationBlock entry.1 entry.2 entry.2.constants) := by
  refine ⟨entry.2.constants.map id.constantLine, ?_, id.enumerationBlock_eq _ _ _⟩
  rw [← (Constant.exact_constants h).1, List.forall₂_map_left_iff, List.forall₂_map_right_iff,
    List.forall₂_same]
  exact fun c _ => ⟨_, id.constantLine_eq c⟩

/-- Arguments of a function type go by their identifiers, too, if they are written at all. -/
theorem typeText_function (arguments : List (String × TypeExpr)) (result : TypeExpr)
    (isConst isNoExcept : Bool) :
    let r : Resolver := { spec := s, mapping := (Target.ofId id).mapping }
    id.typeText s (.function arguments result isConst isNoExcept) =
      r.guarded isConst (r.annotated ((Target.ofId id).mapping.function
        (arguments.map fun a => (id.identifier a.1, id.typeText s a.2))
        (id.typeText s result)) (if isNoExcept then ["noexcept"] else [])) := by
  have hfunction (result : String) : (Target.ofId id).mapping.function
      (arguments.map fun a => ((Target.ofId id).mapping.naming.apply a.1, id.typeText s a.2))
        result =
      (Target.ofId id).mapping.function
        (arguments.map fun a => (id.identifier a.1, id.typeText s a.2)) result := by
    cases id with
    | typescript => rfl
    | python =>
        change "Callable[[" ++ Text.joined ", " ((arguments.map _).map Prod.snd) ++ _ ++ _ ++ _ =
          "Callable[[" ++ Text.joined ", " ((arguments.map _).map Prod.snd) ++ _ ++ _ ++ _
        rw [List.map_map, List.map_map]
        rfl
  intro r
  rw [← hfunction, typeText, Resolver.resolve, Resolver.value_resolveArguments]
  rfl

end TargetId

namespace Emission

open TargetId

/-- A spec that is written at all has a declaration unit with one block for each record, class and
interface, and a unit with one block for each enumeration. -/
theorem ofSpec_members (id : TargetId) (s : Spec) (bridgeModule : Option String) (shelf : Shelf)
    (h : (ofSpec (.ofId id) s bridgeModule Sink.memory shelf).1.abort = none) :
    let held := (ofSpec (.ofId id) s bridgeModule Sink.memory shelf).2
    (∃ u body, held.get? id.declarationUnit = some u ∧ u.lines = id.layout (id.front s) body ∧
      (∃ blocks, body .records = List.flatten blocks ∧
        List.Forall₂ (id.RecordLines s) s.records.entries blocks) ∧
      (∃ blocks, body .classes = List.flatten blocks ∧
        List.Forall₂ (id.ClassLines s) s.classes.entries blocks) ∧
      (∃ blocks, body .interfaces = List.flatten blocks ∧
        List.Forall₂ (id.InterfaceLines s) s.interfaces.entries blocks)) ∧
    (∃ u blocks, held.get? id.enumerationUnit = some u ∧ List.flatten blocks <:+: u.lines ∧
      List.Forall₂ id.EnumerationLines s.enumerations.entries blocks) ∧
    ∀ arguments result isConst isNoExcept,
      let r : Resolver := { spec := s, mapping := (Target.ofId id).mapping }
      id.typeText s (.function arguments result isConst isNoExcept) =
        r.guarded isConst (r.annotated ((Target.ofId id).mapping.function
          (arguments.map fun a => (id.identifier a.1, id.typeText s a.2))
          (id.typeText s result)) (if isNoExcept then ["noexcept"] else [])) := by
  intro held
  have hfits := valuesFit_of_abort h
  have hunit : held.get? id.declarationUnit =
      some (id.unit id.declarationUnit ((id.statements s).flatMap id.write)) :=
    (get?_ofSpec hfits shelf _).trans (if_pos rfl)
  refine ⟨⟨_, id.body s, hunit, (id.lines_unit _ _).trans (id.lines_statements s), ?_, ?_, ?_⟩, ?_,
    id.typeText_function s⟩
  · rw [TargetId.body, Spec.entities, List.flatMap_map]
    exact exists_blocks fun entry _ => id.recordLines_entityLines s entry
  · rw [TargetId.body, Spec.entities, List.flatMap_map]
    exact exists_blocks fun entry _ => id.classLines_entityLines s entry
  · rw [TargetId.body, Spec.entities, List.flatMap_map]
    exact exists_blocks fun entry _ => id.interfaceLines_entityLines s entry
  · obtain ⟨u, hu, hinfix⟩ := get?_enumerationUnit hfits shelf
    obtain ⟨blocks, hblocks, hlines⟩ := exists_blocks fun entry hentry =>
      id.enumerationLines_enumerationBlock (OrderedMap.forall_mem_values.1 hfits entry hentry)
    exact ⟨u, blocks, hu, hblocks ▸ hinfix, hlines⟩

/-- A class with two overloads of one method. -/
def readerClass : Class where
  staticMethods := .ofList [("import", [
    { arguments := [("class", .named "Range")], result := .named "void" },
    { result := .named "void" }])]

/-- Reserved words as names, and a field that may be left out. -/
def reservedSpec : Spec where
  records := .ofList [("Range", { fields := .ofList [
    ("from", { type := .named "int" }),
    ("in", { type := .named "bool", default := some "true" })] })]
  classes := .ofList [("Reader", readerClass)]
  enumerations := .ofList [("Mode", .plain ["from", "to"])]

theorem ofSpec_members_reservedSpec :
    (∀ id, (ofSpec (.ofId id) reservedSpec none Sink.memory ∅).1.abort = none) ∧
    ∀ id : TargetId, ∃ u body lines statics,
      (ofSpec (.ofId id) reservedSpec none Sink.memory ∅).2.get? id.declarationUnit = some u ∧
      u.lines = id.layout (id.front reservedSpec) body ∧
      body .records = id.recordBlock "Range" lines ∧
      List.Forall₂ (id.FieldLine reservedSpec)
        [("from", ⟨.named "int", none⟩), ("in", ⟨.named "bool", some "true"⟩)] lines ∧
      body .classes = id.classBlock "Reader" readerClass (List.flatten statics) ∧
      List.Forall₂ (id.SignatureLines reservedSpec true)
        [⟨"import", 2, { arguments := [("class", .named "Range")], result := .named "void" }⟩,
          ⟨"import", 2, { result := .named "void" }⟩] statics := by
  have habort : ∀ id, (ofSpec (.ofId id) reservedSpec none Sink.memory ∅).1.abort = none := by
    intro id
    cases id <;> decide +kernel
  refine ⟨habort, fun id => ?_⟩
  obtain ⟨⟨u, body, hu, hlines, ⟨records, hrecords, hfields⟩,
      ⟨classes, hclasses, hmethods⟩, -⟩, -⟩ :=
    ofSpec_members id reservedSpec none ∅ (habort id)
  obtain _ | ⟨⟨lines, hfields, rfl⟩, ⟨⟩⟩ := hfields
  obtain _ | ⟨⟨statics, instances, hstatics, hinstances, rfl⟩, ⟨⟩⟩ := hmethods
  obtain ⟨⟩ := hinstances
  refine ⟨u, body, lines, statics, hu, hlines, ?_, hfields, ?_, hstatics⟩
  · rw [hrecords, List.flatten_singleton]
  · rw [hclasses, List.flatten_singleton, List.flatten_nil, List.append_nil]
    exact congrArg (id.classBlock _ _) (List.append_nil _)

end Emission

end Bindery
