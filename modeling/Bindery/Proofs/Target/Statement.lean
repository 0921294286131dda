import Bindery.Proofs.Resolution.Shape
import Bindery.Proofs.Target.Enumerations
import Bindery.Spec.Walk

/-!
# Declaration units, statement by statement

A declaration unit is the text of statements, which know the entities that they introduce and the
shapes of their types. How a target writes them is its own.
-/

namespace Bindery

/-- What stands between the head and the end of a record, a class or an interface. Names are those
of the spec. -/
inductive Member where
  | field (name : String) (isOptional : Bool) (type : Shape)
  | method (name : String) (isStatic isOverload : Bool) (parameters : List (String × Shape))
    (result : Shape)

/-- What stands at the top level of a unit. Entities go by their names in the spec. -/
inductive Statement where
  | comment (text : String)
  | blank
  /-- Takes words of the language from one of its modules. -/
  | words (module : String) (words : List String)
  /-- Takes entities from another unit and hands them on. -/
  | entities (module : String) (names : List String)
  | enumeration (name : String) (isFlag : Bool) (constants : List Constant)
  | opaqueType (name : String)
  | typeAlias (name : String) (type : Shape)
  | record (name : String) (members : List Member)
  | objectClass (name : String) (members : List Member)
  | interface (name : String) (members : List Member)

namespace Member

def shapes : Member → List Shape
  | .field _ _ type => [type]
  | .method _ _ _ parameters result => parameters.map Prod.snd ++ [result]

variable (s : Spec) (m : Mapping)

def ofField (entry : String × RecordField) : Member :=
  .field entry.1 entry.2.isOptional (entry.2.type.shape s m)

def ofProperty (entry : String × TypeExpr) : Member :=
  .field entry.1 false (entry.2.shape s m)

/-- One member for each overload. -/
def ofMethod (isStatic : Bool) (entry : String × List Signature) : List Member :=
  entry.2.map fun sig =>
    .method entry.1 isStatic (1 < entry.2.length) (TypeExpr.shapeArguments s m sig.arguments)
      (sig.result.shape s m)

def ofMethods (isStatic : Bool) (table : MethodTable) : List Member :=
  table.entries.flatMap (ofMethod s m isStatic)

end Member

namespace Statement

/-- The entities that a statement introduces at the top level of its unit, declared there or taken
over from another. -/
def introduced : Statement → List String
  | .comment _ => []
  | .blank => []
  | .words _ _ => []
  | .entities _ names => names
  | .enumeration name _ _ => [name]
  | .opaqueType name => [name]
  | .typeAlias name _ => [name]
  | .record name _ => [name]
  | .objectClass name _ => [name]
  | .interface name _ => [name]

/-- The types that a statement writes. -/
def shapes : Statement → List Shape
  | .comment _ => []
  | .blank => []
  | .words _ _ => []
  | .entities _ _ => []
  | .enumeration _ _ _ => []
  | .opaqueType _ => []
  | .typeAlias _ type => [type]
  | .record _ members => members.flatMap Member.shapes
  | .objectClass _ members => members.flatMap Member.shapes
  | .interface _ members => members.flatMap Member.shapes

variable (s : Spec) (m : Mapping)

def ofAlias (entry : String × TypeExpr) : Statement :=
  .typeAlias entry.1 (entry.2.shape s m)

def ofRecord (entry : String × Record) : Statement :=
  .record entry.1 (entry.2.fields.entries.map (Member.ofField s m))

def ofClass (entry : String × Class) : Statement :=
  .objectClass entry.1 (Member.ofMethods s m true entry.2.staticMethods ++
    entry.2.properties.entries.map (Member.ofProperty s m) ++
    Member.ofMethods s m false entry.2.methods)

/-- The second name of a class, which is an alias for the first. -/
def ofSharedName (entry : String × Class) : List Statement :=
  (entry.2.sharedName.map fun shared => .typeAlias shared (.declared entry.1)).toList

def ofInterface (entry : String × Interface) : Statement :=
  .interface entry.1 (Member.ofMethods s m false entry.2.methods)

def ofEnumeration (entry : String × Enumeration) : Statement :=
  .enumeration entry.1 entry.2.isFlag entry.2.constants

end Statement

/-! ## The types of statements are those of the spec -/

section

variable {s : Spec} {m : Mapping} {p : Shape → Prop}

theorem Member.forall_shapes_ofField {entry : String × RecordField} :
    (∀ x ∈ (ofField s m entry).shapes, p x) ↔ p (entry.2.type.shape s m) :=
  List.forall_mem_singleton

theorem Member.forall_shapes_ofProperty {entry : String × TypeExpr} :
    (∀ x ∈ (ofProperty s m entry).shapes, p x) ↔ p (entry.2.shape s m) :=
  List.forall_mem_singleton

theorem Member.forall_shapes_ofMethods {isStatic : Bool} {table : MethodTable} :
    (∀ member ∈ ofMethods s m isStatic table, ∀ x ∈ member.shapes, p x) ↔
      ∀ overloads ∈ table.values, ∀ sig ∈ overloads, ∀ t ∈ sig.types, p (t.shape s m) := by
  simp only [ofMethods, ofMethod, List.forall_mem_flatMap, List.forall_mem_map, shapes,
    List.forall_mem_append, List.forall_mem_singleton, TypeExpr.shapeArguments_eq_map,
    OrderedMap.forall_mem_values, Signature.types]

namespace Statement

@[simp] theorem shapes_comment (text : String) : (comment text).shapes = [] := rfl

@[simp] theorem shapes_blank : blank.shapes = [] := rfl

@[simp] theorem shapes_words (module : String) (names : List String) :
    (words module names).shapes = [] := rfl

@[simp] theorem shapes_entities (module : String) (names : List String) :
    (entities module names).shapes = [] := rfl

@[simp] theorem shapes_ofEnumeration (entry : String × Enumeration) :
    (ofEnumeration entry).shapes = [] := rfl

@[simp] theorem shapes_opaqueType (name : String) : (opaqueType name).shapes = [] := rfl

theorem forall_shapes_ofAlias {entry : String × TypeExpr} :
    (∀ x ∈ (ofAlias s m entry).shapes, p x) ↔ p (entry.2.shape s m) :=
  List.forall_mem_singleton

theorem forall_shapes_ofRecord {entry : String × Record} :
    (∀ x ∈ (ofRecord s m entry).shapes, p x) ↔
      ∀ f ∈ entry.2.fields.values, p (f.type.shape s m) := by
  simp only [ofRecord, shapes, List.forall_mem_flatMap, List.forall_mem_map,
    Member.forall_shapes_ofField, OrderedMap.forall_mem_values]

theorem forall_shapes_ofClass {entry : String × Class} :
    (∀ x ∈ (ofClass s m entry).shapes, p x) ↔
      (∀ overloads ∈ entry.2.staticMethods.values, ∀ sig ∈ overloads, ∀ t ∈ sig.types,
        p (t.shape s m)) ∧
      (∀ t ∈ entry.2.properties.values, p (t.shape s m)) ∧
      ∀ overloads ∈ entry.2.methods.values, ∀ sig ∈ overloads, ∀ t ∈ sig.types,
        p (t.shape s m) := by
  simp only [ofClass, shapes, List.forall_mem_flatMap, List.forall_mem_append,
    List.forall_mem_map, Member.forall_shapes_ofMethods, Member.forall_shapes_ofProperty,
    OrderedMap.forall_mem_values, and_assoc]

theorem forall_shapes_ofInterface {entry : String × Interface} :
    (∀ x ∈ (ofInterface s m entry).shapes, p x) ↔
      ∀ overloads ∈ entry.2.methods.values, ∀ sig ∈ overloads, ∀ t ∈ sig.types,
        p (t.shape s m) := by
  simp only [ofInterface, shapes, List.forall_mem_flatMap, Member.forall_shapes_ofMethods]

theorem forall_shapes_ofSharedName {entry : String × Class} :
    (∀ st ∈ ofSharedName entry, ∀ x ∈ st.shapes, p x) ↔
      (entry.2.sharedName.isSome = true → p (.declared entry.1)) := by
  cases h : entry.2.sharedName <;> simp [ofSharedName, h, shapes]

end Statement

end

/-! ## The types of a spec, entity by entity -/

namespace Spec

variable {s : Spec} {p : TypeExpr → Prop}

theorem forall_hasType_iff_entities :
    (∀ t, s.HasType t → p t) ↔
      (∀ t ∈ s.aliases.values, p t) ∧
      (∀ r ∈ s.records.values, ∀ f ∈ r.fields.values, p f.type) ∧
      (∀ c ∈ s.classes.values,
        (∀ overloads ∈ c.staticMethods.values, ∀ sig ∈ overloads, ∀ t ∈ sig.types, p t) ∧
        (∀ t ∈ c.properties.values, p t) ∧
        ∀ overloads ∈ c.methods.values, ∀ sig ∈ overloads, ∀ t ∈ sig.types, p t) ∧
      ∀ i ∈ s.interfaces.values, ∀ overloads ∈ i.methods.values, ∀ sig ∈ overloads,
        ∀ t ∈ sig.types, p t := by
  have htypes (sig : Signature) : (∀ t ∈ sig.types, p t) ↔
      (∀ t ∈ sig.arguments.map Prod.snd, p t) ∧ p sig.result := by
    simp only [Signature.types, List.forall_mem_append, List.forall_mem_singleton]
  simp only [forall_hasType_iff, ← htypes, forall_hasSignature_iff]
  constructor
  · rintro ⟨hfields, hproperties, ⟨hmethods, hstatic, hinterfaces⟩, haliases⟩
    exact ⟨haliases, hfields, fun c hc => ⟨hstatic c hc, hproperties c hc, hmethods c hc⟩,
      hinterfaces⟩
  · rintro ⟨haliases, hfields, hclasses, hinterfaces⟩
    exact ⟨hfields, fun c hc => (hclasses c hc).2.1,
      ⟨fun c hc => (hclasses c hc).2.2, fun c hc => (hclasses c hc).1, hinterfaces⟩, haliases⟩

/-- What holds of the type at a stop, if there is one. -/
def VisitHolds (p : TypeExpr → Prop) : Visit → Prop
  | .entity .. => True
  | .type _ t => p t

theorem forall_typeVisits_iff :
    (∀ visit ∈ s.typeVisits, VisitHolds p visit) ↔ ∀ t, s.HasType t → p t := by
  simp only [typeVisits, Record.visits, Class.visits, Interface.visits, MethodTable.visits,
    List.forall_mem_append, List.forall_mem_flatMap, List.forall_mem_map, List.forall_mem_cons,
    VisitHolds, forall_hasType_iff_entities, OrderedMap.forall_mem_values, true_and, and_assoc]

end Spec

end Bindery
