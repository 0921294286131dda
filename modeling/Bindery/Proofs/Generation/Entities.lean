import Bindery.Proofs.Generation.References

/-!
# Declaration units, section by section

`lines_statements`: a declaration unit has four sections, with the lines of one entity after the
other.
-/

namespace Bindery

/-! ## Entities and sections -/

/-- What a spec declares and what has types in it. -/
inductive Entity where
  | typeAlias (name : String) (type : TypeExpr)
  | record (name : String) (record : Record)
  | objectClass (name : String) (c : Class)
  | interface (name : String) (i : Interface)

/-- The parts of a declaration unit, each with the entities of one kind. -/
inductive Section where
  | aliases
  | records
  | classes
  | interfaces
  deriving DecidableEq, Repr

namespace Section

def all : List Section := [.aliases, .records, .classes, .interfaces]

def title : Section → String
  | .aliases => "Type aliases"
  | .records => "Records"
  | .classes => "Classes"
  | .interfaces => "Interfaces"

end Section

namespace Entity

def home : Entity → Section
  | .typeAlias .. => .aliases
  | .record .. => .records
  | .objectClass .. => .classes
  | .interface .. => .interfaces

def visits : Entity → List Visit
  | .typeAlias name t => [.type (aliasLocation name) t]
  | .record name r => r.visits name
  | .objectClass name c => c.visits name
  | .interface name i => i.visits name

end Entity

namespace Spec

/-- The entities of a section in their order. -/
def entities (s : Spec) : Section → List Entity
  | .aliases => s.aliases.entries.map fun entry => .typeAlias entry.1 entry.2
  | .records => s.records.entries.map fun entry => .record entry.1 entry.2
  | .classes => s.classes.entries.map fun entry => .objectClass entry.1 entry.2
  | .interfaces => s.interfaces.entries.map fun entry => .interface entry.1 entry.2

theorem typeVisits_eq (s : Spec) :
    s.typeVisits = Section.all.flatMap fun k => (s.entities k).flatMap Entity.visits := by
  simp [typeVisits, Section.all, entities, Entity.visits, List.flatMap_map,
    ← List.map_eq_flatMap]

end Spec

/-! ## The statements of an entity -/

namespace TargetId

variable (id : TargetId) (s : Spec)

/-- A second name comes behind the class; Python leaves a blank line behind it. -/
def statementsOf : TargetId → Spec → Entity → List Statement
  | id, s, .typeAlias name t => [.ofAlias s (Target.ofId id).mapping (name, t)]
  | id, s, .record name r => [.ofRecord s (Target.ofId id).mapping (name, r)]
  | .typescript, s, .objectClass name c =>
    .ofClass s TypeScript.mapping (name, c) :: Statement.ofSharedName (name, c)
  | .python, s, .objectClass name c =>
    .ofClass s Python.mapping (name, c) ::
      (Statement.ofSharedName (name, c)).flatMap fun second => [second, .blank]
  | id, s, .interface name i => [.ofInterface s (Target.ofId id).mapping (name, i)]

/-- What comes before the sections. -/
def leading : TargetId → Spec → List Statement
  | .typescript, s =>
    [.comment generatedBanner] ++
    (if s.enumerations.isEmpty then [] else [.entities "./enums" s.enumerations.keys]) ++
    [.comment "Opaque types"] ++ s.opaqueTypes.map .opaqueType
  | .python, s =>
    [.comment generatedBanner, .words "enum" ["Enum", "IntFlag"],
      .words "typing" ["Annotated", "Any", "Callable", "NoReturn", "NotRequired", "Protocol",
        "TypeAlias", "TypedDict", "final", "overload"],
      .blank, .comment "Enums"] ++ s.enumerations.entries.map .ofEnumeration ++
    [.comment "Opaque types"] ++ s.opaqueTypes.map .opaqueType

/-- What closes a section. -/
def trailing : TargetId → Section → List Statement
  | .python, .aliases => [.blank]
  | _, _ => []

theorem statements_eq : id.statements s = id.leading s ++ Section.all.flatMap fun k =>
    .comment k.title :: ((s.entities k).flatMap (id.statementsOf s) ++ id.trailing k) := by
  cases id with
  | typescript =>
      simp [statements, TypeScript.statements, leading, Section.all, Section.title, Spec.entities,
        statementsOf, trailing, List.flatMap_map, ← List.map_eq_flatMap, Target.ofId,
        TypeScript.target]
  | python =>
      simp [statements, Python.statements, leading, Section.all, Section.title, Spec.entities,
        statementsOf, trailing, List.flatMap_map, ← List.map_eq_flatMap, Target.ofId,
        Python.target]

/-! ## The lines of a section -/

def heading : TargetId → Section → String
  | .typescript, k => "// " ++ k.title
  | .python, k => "# " ++ k.title

/-- The lines under a section. -/
def gap (k : Section) : List String :=
  (id.trailing k).flatMap id.write

def entityLines (e : Entity) : List String :=
  (id.statementsOf s e).flatMap id.write

def body (k : Section) : List String :=
  (s.entities k).flatMap (id.entityLines s)

/-- The lines before the sections: among them the enumerations, or their import. -/
def front : List String :=
  (id.leading s).flatMap id.write

/-- A unit of four sections. -/
def layout (front : List String) (body : Section → List String) : List String :=
  front ++ Section.all.flatMap fun k => id.heading k :: (body k ++ id.gap k)

theorem lines_statements :
    (id.statements s).flatMap id.write = id.layout (id.front s) (id.body s) := by
  have hheading (k : Section) : id.write (.comment k.title) = [id.heading k] := by
    cases id <;> rfl
  have hsection (k : Section) :
      (Statement.comment k.title :: ((s.entities k).flatMap (id.statementsOf s) ++
        id.trailing k)).flatMap id.write = id.heading k :: (id.body s k ++ id.gap k) := by
    rw [List.flatMap_cons, hheading, List.flatMap_append, List.flatMap_assoc]
    rfl
  rw [statements_eq, List.flatMap_append, List.flatMap_assoc]
  simp only [hsection]
  rfl

end TargetId

end Bindery
