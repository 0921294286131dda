import Bindery.Proofs.Resolution.Misses
import Bindery.Proofs.Target.Block
import Bindery.Target.Python
import Bindery.Target.TypeScript

/-!
# The issues of a declaration unit

Both targets meet the types of a spec in the order of the walk. So the issues that each of them
records are what the types on the way miss, one after the other.
-/

namespace Bindery

/-- What is missed at a stop of the walk. -/
def Visit.misses (s : Spec) (v : Vocabulary) : Visit → List Issue
  | .entity .. => []
  | .type location t => t.misses s v location

/-- What a whole spec misses. -/
def Spec.misses (s : Spec) (v : Vocabulary) : List Issue :=
  s.typeVisits.flatMap (Visit.misses s v)

namespace Resolver

variable (r : Resolver)

/-- What is missed on a part of the walk. -/
def missesOn (visits : List Visit) : List Issue :=
  visits.flatMap (Visit.misses r.spec r.mapping.vocabulary)

theorem missesOn_append (xs ys : List Visit) :
    r.missesOn (xs ++ ys) = r.missesOn xs ++ r.missesOn ys :=
  List.flatMap_append

theorem missesOn_entity (kind : EntityKind) (name : String) (visits : List Visit) :
    r.missesOn (.entity kind name :: visits) = r.missesOn visits :=
  rfl

theorem missesOn_flatMap {α : Type} (xs : List α) (f : α → List Visit) :
    r.missesOn (xs.flatMap f) = xs.flatMap fun x => r.missesOn (f x) :=
  List.flatMap_assoc

theorem issues_located (location : String) (t : TypeExpr) :
    ((r.located location).resolve t).issues = r.missesOn [.type location t] := by
  rw [issues_resolve]
  simp [missesOn, Visit.misses, located]

theorem missesOn_map_type {α : Type} (xs : List α) (location : α → String) (type : α → TypeExpr) :
    r.missesOn (xs.map fun x => .type (location x) (type x)) =
      xs.flatMap fun x => ((r.located (location x)).resolve (type x)).issues := by
  simp only [issues_located]
  exact List.flatMap_map .. |>.trans (by simp [missesOn])

/-- A signature misses what its arguments miss, and then what its result misses. -/
theorem issues_signature (sig : Signature) :
    (r.resolveArguments sig.arguments).issues ++ (r.resolve sig.result).issues =
      sig.types.flatMap fun t => (r.resolve t).issues := by
  simp [issues_resolveArguments, Signature.types, List.flatMap_map]

theorem missesOn_methods (kind owner : String) (table : MethodTable) :
    r.missesOn (table.visits kind owner) =
      table.entries.flatMap fun entry => entry.2.flatMap fun sig =>
        let r := r.located (memberLocation kind owner entry.1)
        (r.resolveArguments sig.arguments).issues ++ (r.resolve sig.result).issues := by
  rw [MethodTable.visits, missesOn_flatMap]
  refine List.flatMap_congr fun entry _ => ?_
  have hmap := r.missesOn_map_type (entry.2.flatMap Signature.types)
    (fun _ => memberLocation kind owner entry.1) id
  simp only [issues_signature]
  exact hmap.trans List.flatMap_assoc

end Resolver

/-! ## TypeScript -/

namespace TypeScript

variable (r : Resolver)

theorem issues_typeAlias (name : String) (t : TypeExpr) :
    (typeAlias r name t).issues = r.missesOn [.type (aliasLocation name) t] :=
  r.issues_located _ t

theorem issues_record (name : String) (x : Record) :
    (record r name x).issues = r.missesOn (x.visits name) := by
  simp [record, field, Record.visits, Resolver.missesOn_entity, Resolver.missesOn_map_type]

theorem issues_methods (kind owner word : String) (table : MethodTable) :
    (methods r kind owner word table).issues = r.missesOn (table.visits kind owner) := by
  simp [methods, Resolver.missesOn_methods, List.flatMap_map]

theorem issues_classBlock (name : String) (c : Class) :
    (classBlock r name c).issues = r.missesOn (c.visits name) := by
  simp [classBlock, property, Class.visits, issues_methods, Resolver.missesOn_entity,
    Resolver.missesOn_append, Resolver.missesOn_map_type]

theorem issues_interfaceBlock (name : String) (i : Interface) :
    (interfaceBlock r name i).issues = r.missesOn (i.visits name) := by
  simp [interfaceBlock, Interface.visits, issues_methods, Resolver.missesOn_entity]

theorem issues_declarations (s : Spec) :
    (declarations s).issues = s.misses mapping.vocabulary := by
  change _ = (resolver s).missesOn s.typeVisits
  simp [declarations, Spec.typeVisits, issues_typeAlias, issues_record, issues_classBlock,
    issues_interfaceBlock, Resolver.missesOn_append, Resolver.missesOn_flatMap,
    Resolver.missesOn_map_type, Resolver.issues_located]

end TypeScript

/-! ## Python -/

namespace Python

variable (r : Resolver)

@[simp] theorem issues_body (b : Block) : (body b).issues = b.issues := by
  rw [body]
  split <;> rfl

theorem issues_typeAlias (name : String) (t : TypeExpr) :
    (typeAlias r name t).issues = r.missesOn [.type (aliasLocation name) t] :=
  r.issues_located _ t

theorem issues_record (name : String) (x : Record) :
    (record r name x).issues = r.missesOn (x.visits name) := by
  simp [record, field, Record.visits, Resolver.missesOn_entity, Resolver.missesOn_map_type]

theorem issues_methods (kind owner : String) (isStatic : Bool) (table : MethodTable) :
    (methods r kind owner isStatic table).issues = r.missesOn (table.visits kind owner) := by
  simp [methods, signature, Resolver.missesOn_methods, List.flatMap_map]

theorem issues_classBlock (name : String) (c : Class) :
    (classBlock r name c).issues = r.missesOn (c.visits name) := by
  simp [classBlock, property, Class.visits, issues_methods, Resolver.missesOn_entity,
    Resolver.missesOn_append, Resolver.missesOn_map_type]

theorem issues_interfaceBlock (name : String) (i : Interface) :
    (interfaceBlock r name i).issues = r.missesOn (i.visits name) := by
  simp [interfaceBlock, Interface.visits, issues_methods, Resolver.missesOn_entity]

theorem issues_declarations (s : Spec) :
    (declarations s).issues = s.misses mapping.vocabulary := by
  change _ = (resolver s).missesOn s.typeVisits
  simp [declarations, Spec.typeVisits, issues_typeAlias, issues_record, issues_classBlock,
    issues_interfaceBlock, Resolver.missesOn_append, Resolver.missesOn_flatMap,
    Resolver.missesOn_map_type, Resolver.issues_located]

end Python

end Bindery
