import Bindery.Proofs.Generation.Emission
import Bindery.Proofs.Generation.Entities
import Mathlib.Logic.Function.Basic

/-!
# Adding an entity

`ofSpec_add`: an entity that the types of a spec do not refer to is one more block in its section,
and, if it is a class, one more line in the bridge. What was there before stays as it was.
-/

namespace Bindery

namespace Entity

def name : Entity → String
  | .typeAlias name _ => name
  | .record name _ => name
  | .objectClass name _ => name
  | .interface name _ => name

/-- The names that an entity goes by. -/
def names : Entity → List String
  | .objectClass name c => name :: c.sharedName.toList
  | .typeAlias name _ => [name]
  | .record name _ => [name]
  | .interface name _ => [name]

/-- Where the types of an entity stand, in the words of issues. -/
def locations : Entity → List String
  | .typeAlias name _ => [aliasLocation name]
  | .record name r => r.fields.keys.map (memberLocation "record" name)
  | .objectClass name c =>
    (c.staticMethods.keys ++ c.properties.keys ++ c.methods.keys).map (memberLocation "class" name)
  | .interface name i => i.methods.keys.map (memberLocation "interface" name)

end Entity

def Spec.add (s : Spec) : Entity → Spec
  | .typeAlias name t => { s with aliases := s.aliases.insert name t }
  | .record name r => { s with records := s.records.insert name r }
  | .objectClass name c => { s with classes := s.classes.insert name c }
  | .interface name i => { s with interfaces := s.interfaces.insert name i }

/-! ## What declarations a type depends on -/

namespace TypeExpr

variable {s s' : Spec}

/-- The two specs agree on whether the name at a node is declared. -/
def Alike (s s' : Spec) : TypeExpr → Prop
  | .name path _ _ => joinPath path ∈ s.declaredNames ↔ joinPath path ∈ s'.declaredNames
  | .template .. => True
  | .function .. => True

theorem shapeArguments_congr {m : Mapping} {arguments : List (String × TypeExpr)}
    (h : ∀ a ∈ arguments, a.2.shape s m = a.2.shape s' m) :
    shapeArguments s m arguments = shapeArguments s' m arguments := by
  rw [shapeArguments_eq_map, shapeArguments_eq_map]
  exact List.map_congr_left fun a ha => by rw [h a ha]

theorem shape_congr (m : Mapping) (t : TypeExpr) :
    (∀ u, Occurs u t → u.Alike s s') → t.shape s m = t.shape s' m := by
  induction t with
  | name path isConst indirection =>
      rw [forall_occurs_name]
      intro h
      have hdeclares : s.declares (joinPath path) = s'.declares (joinPath path) := by
        rw [Bool.eq_iff_iff, Spec.declares, Spec.declares, List.contains_iff_mem,
          List.contains_iff_mem]
        exact h
      rw [shape, shape, nameShape, nameShape, hdeclares]
  | template path arguments isConst ih =>
      rw [forall_occurs_template]
      rintro ⟨-, hargs⟩
      rw [shape, shape, shapeAll_eq_map, shapeAll_eq_map,
        List.map_congr_left fun a ha => ih a ha (hargs a ha)]
  | function arguments result isConst isNoExcept hargs hresult =>
      rw [forall_occurs_function]
      rintro ⟨-, harguments, hall⟩
      rw [shape, shape, hresult hall,
        shapeArguments_congr fun a ha => hargs a ha (harguments a ha)]

theorem misses_congr (v : Vocabulary) (location : String)
    (hprimitives : s.primitives = s'.primitives) (t : TypeExpr) :
    (∀ u, Occurs u t → u.Alike s s') → t.misses s v location = t.misses s' v location := by
  induction t with
  | name path isConst indirection =>
      rw [forall_occurs_name]
      intro h
      rw [misses, misses, nameMisses, nameMisses, hprimitives]
      exact if_congr (or_congr_left h) rfl rfl
  | template path arguments isConst ih =>
      rw [forall_occurs_template]
      rintro ⟨-, hargs⟩
      rw [misses, misses, missesAll_eq_flatMap, missesAll_eq_flatMap,
        List.flatMap_congr fun a ha => ih a ha (hargs a ha)]
  | function arguments result isConst isNoExcept hargs hresult =>
      rw [forall_occurs_function]
      rintro ⟨-, harguments, hall⟩
      rw [misses, misses, missesArguments_eq_flatMap, missesArguments_eq_flatMap, hresult hall,
        List.flatMap_congr fun a ha => hargs a ha (harguments a ha)]

theorem location_of_mem_misses {v : Vocabulary} {location : String} (t : TypeExpr) :
    ∀ i ∈ t.misses s v location, i.location = location := by
  induction t with
  | name path isConst indirection =>
      intro i hi
      rw [misses, nameMisses] at hi
      split at hi
      next => cases hi
      next => split at hi <;> cases List.mem_singleton.1 hi <;> rfl
  | template path arguments isConst ih =>
      intro i hi
      rw [misses, templateMisses, missesAll_eq_flatMap] at hi
      split at hi
      next =>
        cases List.mem_singleton.1 hi
        rfl
      next =>
        rcases List.mem_append.1 hi with hi | hi
        · exact List.forall_mem_flatMap.2 ih i hi
        · split at hi
          next => cases hi
          next =>
            cases List.mem_singleton.1 hi
            rfl
  | function arguments result isConst isNoExcept hargs hresult =>
      rw [misses, missesArguments_eq_flatMap, List.forall_mem_append, List.forall_mem_flatMap]
      exact ⟨hargs, hresult⟩

end TypeExpr

/-! ## What an entity depends on -/

namespace Entity

variable {s s' : Spec}

/-- The two specs agree on whatever a type of the entity refers to. -/
def Alike (s s' : Spec) (e : Entity) : Prop :=
  ∀ visit ∈ e.visits, Spec.VisitHolds (fun t => ∀ u, TypeExpr.Occurs u t → u.Alike s s') visit

theorem ofMethods_congr {m : Mapping} {isStatic : Bool} {table : MethodTable} {kind owner : String}
    (h : ∀ visit ∈ table.visits kind owner,
      Spec.VisitHolds (fun t => ∀ u, TypeExpr.Occurs u t → u.Alike s s') visit) :
    Member.ofMethods s m isStatic table = Member.ofMethods s' m isStatic table := by
  simp only [MethodTable.visits, List.forall_mem_flatMap, List.forall_mem_map, Signature.types,
    List.forall_mem_append, List.forall_mem_singleton] at h
  refine List.flatMap_congr fun entry hentry => List.map_congr_left fun sig hsig => ?_
  obtain ⟨harguments, hresult⟩ := h entry hentry sig hsig
  rw [TypeExpr.shape_congr m _ hresult,
    TypeExpr.shapeArguments_congr fun a ha => TypeExpr.shape_congr m _ (harguments a ha)]

theorem statementsOf_congr (id : TargetId) {e : Entity} (h : e.Alike s s') :
    id.statementsOf s e = id.statementsOf s' e := by
  cases e with
  | typeAlias name t =>
      have ht := TypeExpr.shape_congr (Target.ofId id).mapping t (h _ List.mem_cons_self)
      simp only [TargetId.statementsOf, Statement.ofAlias, ht]
  | record name r =>
      obtain ⟨-, hfields⟩ := List.forall_mem_cons.1 h
      have hmembers : r.fields.entries.map (Member.ofField s (Target.ofId id).mapping) =
          r.fields.entries.map (Member.ofField s' (Target.ofId id).mapping) := by
        refine List.map_congr_left fun entry hentry => ?_
        rw [Member.ofField, Member.ofField,
          TypeExpr.shape_congr _ _ (hfields _ (List.mem_map_of_mem hentry))]
      simp only [TargetId.statementsOf, Statement.ofRecord, hmembers]
  | objectClass name c =>
      obtain ⟨-, hmembers⟩ := List.forall_mem_cons.1 h
      obtain ⟨hothers, hmethods⟩ := List.forall_mem_append.1 hmembers
      obtain ⟨hstatics, hproperties⟩ := List.forall_mem_append.1 hothers
      have hmembers (m : Mapping) : c.properties.entries.map (Member.ofProperty s m) =
          c.properties.entries.map (Member.ofProperty s' m) := by
        refine List.map_congr_left fun entry hentry => ?_
        rw [Member.ofProperty, Member.ofProperty,
          TypeExpr.shape_congr _ _ (hproperties _ (List.mem_map_of_mem hentry))]
      cases id <;>
        simp only [TargetId.statementsOf, Statement.ofClass, hmembers, ofMethods_congr hstatics,
          ofMethods_congr hmethods]
  | interface name i =>
      obtain ⟨-, hmethods⟩ := List.forall_mem_cons.1 h
      simp only [TargetId.statementsOf, Statement.ofInterface, ofMethods_congr hmethods]

theorem misses_congr {e : Entity} (v : Vocabulary) (hprimitives : s.primitives = s'.primitives)
    (h : e.Alike s s') :
    e.visits.flatMap (Visit.misses s v) = e.visits.flatMap (Visit.misses s' v) := by
  refine List.flatMap_congr fun visit hvisit => ?_
  cases visit with
  | entity kind name => rfl
  | type location t => exact TypeExpr.misses_congr v location hprimitives t (h _ hvisit)

theorem mem_locations_of_mem_methods {kind owner location : String} {t : TypeExpr}
    {table : MethodTable} (h : .type location t ∈ table.visits kind owner) :
    location ∈ table.keys.map (memberLocation kind owner) := by
  obtain ⟨entry, hentry, h⟩ := List.mem_flatMap.1 h
  obtain ⟨_, -, heq⟩ := List.mem_map.1 h
  cases heq
  exact List.mem_map_of_mem (List.mem_map_of_mem hentry)

theorem mem_locations_of_mem_visits {e : Entity} {location : String} {t : TypeExpr}
    (h : .type location t ∈ e.visits) : location ∈ e.locations := by
  cases e with
  | typeAlias name t =>
      cases List.mem_singleton.1 h
      exact List.mem_cons_self
  | record name r =>
      simp only [visits, Record.visits, List.mem_cons, reduceCtorEq, false_or] at h
      obtain ⟨entry, hentry, heq⟩ := List.mem_map.1 h
      cases heq
      exact List.mem_map_of_mem (List.mem_map_of_mem hentry)
  | objectClass name c =>
      simp only [visits, Class.visits, List.mem_cons, List.mem_append, reduceCtorEq, false_or] at h
      simp only [locations, List.map_append, List.mem_append]
      obtain (hstatic | hproperty) | hmethod := h
      · exact .inl (.inl (mem_locations_of_mem_methods hstatic))
      · obtain ⟨entry, hentry, heq⟩ := List.mem_map.1 hproperty
        cases heq
        exact .inl (.inr (List.mem_map_of_mem (List.mem_map_of_mem hentry)))
      · exact .inr (mem_locations_of_mem_methods hmethod)
  | interface name i =>
      simp only [visits, Interface.visits, List.mem_cons, reduceCtorEq, false_or] at h
      exact mem_locations_of_mem_methods h

theorem location_mem_locations {e : Entity} {v : Vocabulary} :
    ∀ i ∈ e.visits.flatMap (Visit.misses s v), i.location ∈ e.locations := by
  intro i hi
  obtain ⟨visit, hvisit, hi⟩ := List.mem_flatMap.1 hi
  cases visit with
  | entity kind name => cases hi
  | type location t =>
      rw [t.location_of_mem_misses i hi]
      exact mem_locations_of_mem_visits hvisit

end Entity

theorem TargetId.entityLines_congr (id : TargetId) {s s' : Spec} {e : Entity} (h : e.Alike s s') :
    id.entityLines s e = id.entityLines s' e := by
  rw [entityLines, entityLines, Entity.statementsOf_congr id h]

/-! ## A spec with one more entity -/

/-- What comes behind one section stands in the middle of all of them. -/
theorem Section.exists_flatMap_update {α : Type} (f : Section → List α) (k : Section)
    (run : List α) : ∃ before behind, all.flatMap f = before ++ behind ∧
      all.flatMap (Function.update f k (f k ++ run)) = before ++ run ++ behind := by
  cases k with
  | aliases =>
      exact ⟨f .aliases, f .records ++ f .classes ++ f .interfaces, by simp [all],
        by simp [all, Function.update]⟩
  | records =>
      exact ⟨f .aliases ++ f .records, f .classes ++ f .interfaces, by simp [all],
        by simp [all, Function.update]⟩
  | classes =>
      exact ⟨f .aliases ++ f .records ++ f .classes, f .interfaces, by simp [all],
        by simp [all, Function.update]⟩
  | interfaces =>
      exact ⟨f .aliases ++ f .records ++ f .classes ++ f .interfaces, [], by simp [all],
        by simp [all, Function.update]⟩

namespace Spec

variable (s : Spec) (e : Entity)

@[simp] theorem enumerations_add : (s.add e).enumerations = s.enumerations := by
  cases e <;> rfl

@[simp] theorem opaqueTypes_add : (s.add e).opaqueTypes = s.opaqueTypes := by
  cases e <;> rfl

@[simp] theorem primitives_add : (s.add e).primitives = s.primitives := by
  cases e <;> rfl

/-- The names of the entities of a section. -/
def namesIn : Section → List String
  | .aliases => s.aliases.keys
  | .records => s.records.keys
  | .classes => s.classes.keys
  | .interfaces => s.interfaces.keys

/-- There is no entity of that name in the section yet. -/
def Lacks : Prop :=
  e.name ∉ s.namesIn e.home

/-- No name in a type of the spec is one of the entity. -/
def Ignores : Prop :=
  ∀ t, s.HasType t → ∀ path isConst indirection,
    TypeExpr.Occurs (.name path isConst indirection) t → joinPath path ∉ e.names

theorem introducedNames_eq : s.introducedNames = s.enumerations.keys ++ s.opaqueTypes ++
    Section.all.flatMap fun k => (s.entities k).flatMap Entity.names := by
  simp [introducedNames, Section.all, entities, Entity.names, List.flatMap_map, OrderedMap.keys,
    ← List.map_eq_flatMap]

variable {s e} (h : s.Lacks e)

include h

theorem entities_add :
    (s.add e).entities = Function.update s.entities e.home (s.entities e.home ++ [e]) := by
  funext k
  cases e with
  | typeAlias name t =>
      have hentries := @OrderedMap.entries_insert_of_not_mem _ s.aliases name t h
      cases k <;> simp [add, entities, Entity.home, hentries]
  | record name r =>
      have hentries := @OrderedMap.entries_insert_of_not_mem _ s.records name r h
      cases k <;> simp [add, entities, Entity.home, hentries]
  | objectClass name c =>
      have hentries := @OrderedMap.entries_insert_of_not_mem _ s.classes name c h
      cases k <;> simp [add, entities, Entity.home, hentries]
  | interface name i =>
      have hentries := @OrderedMap.entries_insert_of_not_mem _ s.interfaces name i h
      cases k <;> simp [add, entities, Entity.home, hentries]

theorem flatMap_entities_add {α : Type} (f : Entity → List α) :
    (fun k => ((s.add e).entities k).flatMap f) =
      Function.update (fun k => (s.entities k).flatMap f) e.home
        ((s.entities e.home).flatMap f ++ f e) := by
  funext k
  rw [entities_add h]
  by_cases hk : k = e.home
  · subst hk
    simp
  · simp [hk]

theorem mem_declaredNames_add_iff {name : String} :
    name ∈ (s.add e).declaredNames ↔ name ∈ s.declaredNames ∨ name ∈ e.names := by
  obtain ⟨before, behind, hold, hnew⟩ := Section.exists_flatMap_update
    (fun k => (s.entities k).flatMap Entity.names) e.home e.names
  rw [← (introducedNames_perm _).mem_iff, ← (introducedNames_perm _).mem_iff, introducedNames_eq,
    introducedNames_eq, flatMap_entities_add h, hold, hnew]
  simp only [enumerations_add, opaqueTypes_add, List.mem_append]
  tauto

theorem alike_add (hignores : s.Ignores e) {k : Section} {other : Entity}
    (hother : other ∈ s.entities k) : other.Alike s (s.add e) := by
  have hvisits : ∀ visit ∈ s.typeVisits,
      VisitHolds (fun t => ∀ u, TypeExpr.Occurs u t → u.Alike s (s.add e)) visit := by
    refine forall_typeVisits_iff.2 fun t ht u hu => ?_
    cases u with
    | name path isConst indirection =>
        have hnot := hignores t ht _ _ _ hu
        exact ((mem_declaredNames_add_iff h).trans (or_iff_left hnot)).symm
    | template path arguments isConst => trivial
    | function arguments result isConst isNoExcept => trivial
  intro visit hvisit
  refine hvisits visit ?_
  rw [typeVisits_eq]
  exact List.mem_flatMap.2 ⟨k, by cases k <;> decide, List.mem_flatMap.2 ⟨other, hother, hvisit⟩⟩

theorem misses_add (hignores : s.Ignores e) (v : Vocabulary) :
    ∃ before behind, s.misses v = before ++ behind ∧
      (s.add e).misses v = before ++ e.visits.flatMap (Visit.misses (s.add e) v) ++ behind := by
  have hmisses (s : Spec) : s.misses v = Section.all.flatMap fun k =>
      (s.entities k).flatMap fun e => e.visits.flatMap (Visit.misses s v) := by
    rw [misses, typeVisits_eq, List.flatMap_assoc]
    simp only [List.flatMap_assoc]
  have hold : (fun k => (s.entities k).flatMap fun e => e.visits.flatMap (Visit.misses s v)) =
      fun k => (s.entities k).flatMap fun e' => e'.visits.flatMap (Visit.misses (s.add e) v) :=
    funext fun k => List.flatMap_congr fun other hother =>
      Entity.misses_congr v (primitives_add s e).symm (alike_add h hignores hother)
  rw [hmisses, hmisses, hold, flatMap_entities_add h]
  exact Section.exists_flatMap_update _ _ _

theorem body_add (hignores : s.Ignores e) (id : TargetId) :
    id.body (s.add e) =
      Function.update (id.body s) e.home (id.body s e.home ++ id.entityLines (s.add e) e) := by
  have hold : (fun k => (s.entities k).flatMap (id.entityLines (s.add e))) = id.body s :=
    funext fun k => List.flatMap_congr fun other hother =>
      (id.entityLines_congr (alike_add h hignores hother)).symm
  have hnew := flatMap_entities_add h (id.entityLines (s.add e))
  rw [hold, congrFun hold] at hnew
  exact hnew

end Spec

namespace TargetId

variable (id : TargetId) {s : Spec} {e : Entity}

theorem front_add : id.front (s.add e) = id.front s := by
  cases id <;> simp [front, leading]

/-- The line with everything that a module hands on. -/
def exportsLine (names : List String) : String :=
  "__all__ = [" ++ Text.joined ", " (names.map fun name =>
    Python.stringLiteral (entityIdentifier name)) ++ "]"

/-- The lines of a bridge before and after there is one more class: a line for it comes behind
those of the others, and Python lists all names at the end. -/
def Bridges : TargetId → String → List String → String → List String → List String → Prop
  | .typescript, bridgeModule, _, name, old, new =>
    new = old ++ [TypeScript.bridgeLine bridgeModule name]
  | .python, _, names, name, old, new => ∃ before,
    old = before ++ ["", exportsLine names] ∧
      new = before ++ [Python.bridgeLine name] ++ ["", exportsLine (names ++ [name])]

theorem bridge_add (h : e.home ≠ .classes) (bridgeModule : String) :
    id.bridge (s.add e) bridgeModule = id.bridge s bridgeModule := by
  cases e with
  | objectClass name c => exact absurd rfl h
  | typeAlias name t => cases id <;> rfl
  | record name r => cases id <;> rfl
  | interface name i => cases id <;> rfl

theorem bridges_add (hlacks : s.Lacks e) (h : e.home = .classes) (bridgeModule : String) :
    id.Bridges bridgeModule s.classes.keys e.name (id.bridge s bridgeModule)
      (id.bridge (s.add e) bridgeModule) := by
  cases e with
  | objectClass name c =>
      have hkeys := @OrderedMap.keys_insert_of_not_mem _ s.classes name c hlacks
      cases id with
      | typescript =>
          simp only [Bridges, bridge, TypeScript.bridge, Spec.add, hkeys, List.map_append,
            List.append_assoc]
          rfl
      | python =>
          refine ⟨_, rfl, ?_⟩
          simp only [bridge, Python.bridge, Spec.add, hkeys, List.map_append, List.append_assoc,
            exportsLine]
          rfl
  | typeAlias name t => cases h
  | record name r => cases h
  | interface name i => cases h

end TargetId

namespace Emission

/-- A spec that is written to the end still is, with an entity added that is new to its section and
that no type refers to. The declaration unit gets one block, at the end of that section, and the
bridge one line if it is a class. New issues stand together and lie in the entity. No other unit
changes. -/
theorem ofSpec_add (id : TargetId) (s : Spec) (e : Entity) (bridgeModule : Option String)
    (shelf : Shelf) (hlacks : s.Lacks e) (hignores : s.Ignores e)
    (h : (ofSpec (.ofId id) s bridgeModule Sink.memory shelf).1.abort = none) :
    let old := ofSpec (.ofId id) s bridgeModule Sink.memory shelf
    let new := ofSpec (.ofId id) (s.add e) bridgeModule Sink.memory shelf
    new.1.abort = none ∧
    (∃ u, old.2.get? id.declarationUnit = some u ∧ u.lines = id.layout (id.front s) (id.body s) ∧
      new.2.get? id.declarationUnit = some { u with
        lines := id.layout (id.front s) (Function.update (id.body s) e.home
          (id.body s e.home ++ id.entityLines (s.add e) e)) }) ∧
    (∀ name, name ≠ id.declarationUnit → name ≠ id.bridgeUnit →
      new.2.get? name = old.2.get? name) ∧
    (e.home ≠ .classes → new.2.get? id.bridgeUnit = old.2.get? id.bridgeUnit) ∧
    (e.home = .classes → ∃ u lines, old.2.get? id.bridgeUnit = some u ∧
      new.2.get? id.bridgeUnit = some { u with lines := lines } ∧
      id.Bridges (bridgeModule.getD (Target.ofId id).bridgeModule) s.classes.keys e.name
        u.lines lines) ∧
    ∃ before run behind, old.1.issues = before ++ behind ∧
      new.1.issues = before ++ run ++ behind ∧ ∀ i ∈ run, i.location ∈ e.locations := by
  intro old new
  have hfits := valuesFit_of_abort h
  have hfits' : (s.add e).ValuesFit := by
    rwa [Spec.ValuesFit, Spec.enumerations_add]
  obtain ⟨-, -, -, -, -, hissues, -⟩ := ofSpec_memory id hfits bridgeModule shelf
  obtain ⟨-, -, -, habort, -, hissues', -⟩ := ofSpec_memory id hfits' bridgeModule shelf
  have hget (name : String) := @get?_ofSpec id s bridgeModule hfits shelf name
  have hget' (name : String) := @get?_ofSpec id (s.add e) bridgeModule hfits' shelf name
  have hunit (name : String) (lines lines' : List String) :
      id.unit name lines' = { id.unit name lines with lines := lines' } := by
    cases id <;> rfl
  have hbridge : id.bridgeUnit ≠ id.declarationUnit := by
    cases id <;> decide
  refine ⟨habort, ⟨_, (hget _).trans (if_pos rfl), ?_, ?_⟩, fun name hname hother => ?_,
    fun hhome => ?_, fun hhome => ?_, ?_⟩
  · rw [id.lines_unit, id.lines_statements]
  · rw [hget', if_pos rfl, id.lines_statements, id.front_add, Spec.body_add hlacks hignores]
    exact congrArg some (hunit _ _ _)
  · rw [hget, hget', if_neg hname, if_neg hname, if_neg hother, if_neg hother]
    simp only [Spec.enumerationBlocks, Spec.enumerations_add]
  · rw [hget, hget', if_neg hbridge, if_neg hbridge, if_pos rfl, if_pos rfl,
      id.bridge_add hhome]
  · refine ⟨_, _, (hget _).trans ((if_neg hbridge).trans (if_pos rfl)),
      (hget' _).trans ((if_neg hbridge).trans ((if_pos rfl).trans
        (congrArg some (hunit _ _ _)))), ?_⟩
    rw [id.lines_unit]
    exact id.bridges_add hlacks hhome _
  · obtain ⟨before, behind, hold, hnew⟩ :=
      Spec.misses_add hlacks hignores (Target.ofId id).mapping.vocabulary
    exact ⟨before, _, behind, hissues.trans hold, hissues'.trans hnew,
      Entity.location_mem_locations⟩

/-- A class, and something missing before it and behind it. -/
def listenerSpec : Spec where
  aliases := .ofList [("Handle", .name ["Missing"] false {})]
  classes := .ofList [("Session", {})]
  interfaces := .ofList [("Listener", { methods := .ofList [("notify", [
    { arguments := [("handle", .name ["Handle"] false {})],
      result := .name ["Missing"] false {} }])] })]

/-- A class of two names that refers to the entities before it, to itself and to nothing. -/
def queue : Entity := .objectClass "Queue" {
  methods := .ofList [("push", [
    { arguments := [("session", .name ["Session"] false {}), ("next", .name ["Queue"] false {})],
      result := .name ["Nothing"] false {} }])]
  sharedName := some "SharedQueue" }

theorem ofSpec_add_queue :
    (listenerSpec.Lacks queue ∧ listenerSpec.Ignores queue) ∧ ∀ id : TargetId,
      let old := ofSpec (.ofId id) listenerSpec none Sink.memory ∅
      let new := ofSpec (.ofId id) (listenerSpec.add queue) none Sink.memory ∅
      old.1.abort = none ∧ new.1.abort = none ∧
      (∃ u lines, old.2.get? id.bridgeUnit = some u ∧
        new.2.get? id.bridgeUnit = some { u with lines := lines } ∧
        id.Bridges (Target.ofId id).bridgeModule ["Session"] "Queue" u.lines lines) ∧
      ∃ before run behind, old.1.issues = before ++ behind ∧
        new.1.issues = before ++ run ++ behind ∧ ∀ i ∈ run, i.location = "class Queue.push" := by
  have hlacks : listenerSpec.Lacks queue := by
    rw [Spec.Lacks]
    decide +kernel
  have hname {path isConst indirection} (h : joinPath path ∉ queue.names) :
      ∀ path' isConst' indirection', TypeExpr.Occurs (.name path' isConst' indirection')
        (.name path isConst indirection) → joinPath path' ∉ queue.names := by
    intro path' isConst' indirection' hoccurs
    cases hoccurs
    exact h
  have hignores : listenerSpec.Ignores queue := by
    refine Spec.forall_hasType_iff_entities.2 ⟨List.forall_mem_singleton.2 (hname ?_), nofun,
      List.forall_mem_singleton.2 ⟨nofun, nofun, nofun⟩,
      List.forall_mem_singleton.2 (List.forall_mem_singleton.2 (List.forall_mem_singleton.2
        (List.forall_mem_cons.2 ⟨hname ?_, List.forall_mem_singleton.2 (hname ?_)⟩)))⟩ <;>
    decide +kernel
  refine ⟨⟨hlacks, hignores⟩, fun id => ?_⟩
  have habort : (ofSpec (.ofId id) listenerSpec none Sink.memory ∅).1.abort = none := by
    cases id <;> decide +kernel
  obtain ⟨hadded, -, -, -, hbridge, before, run, behind, hold, hnew, hlocations⟩ :=
    ofSpec_add id listenerSpec queue none ∅ hlacks hignores habort
  exact ⟨habort, hadded, hbridge rfl, before, run, behind, hold, hnew,
    fun i hi => List.mem_singleton.1 (hlocations i hi)⟩

end Emission

end Bindery
