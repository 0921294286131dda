import Bindery.Proofs.Generation.Units
import Bindery.Proofs.Resolution.References
import Mathlib.Data.List.Nodup
import Mathlib.Data.List.Perm.Basic

/-!
# Entities and references of the statements

`introducedNames_perm`: the statements of a unit introduce the declared names, each once.
`references_subset`: they refer to nothing else.
-/

namespace Bindery

/-! ## The entities of the statements -/

/-- The declared names in the order in which units introduce them. -/
def Spec.introducedNames (s : Spec) : List String :=
  s.enumerations.keys ++ s.opaqueTypes ++ s.aliases.keys ++ s.records.keys ++
    (s.classes.entries.flatMap fun entry => entry.1 :: entry.2.sharedName.toList) ++
    s.interfaces.keys

namespace Statement

theorem introduced_map_entries {α : Type} (m : OrderedMap α) (write : String × α → Statement)
    (h : ∀ entry, (write entry).introduced = [entry.1]) :
    (m.entries.map write).flatMap introduced = m.keys := by
  simp only [List.flatMap_map, h, ← List.map_eq_flatMap]
  rfl

theorem introduced_opaqueTypes (names : List String) :
    (names.map opaqueType).flatMap introduced = names := by
  rw [List.flatMap_map]
  exact List.flatMap_singleton' names

end Statement

open Statement

theorem TypeScript.introduced_statements (s : Spec) :
    (statements s).flatMap introduced = s.introducedNames := by
  have himports : (if s.enumerations.isEmpty then []
      else [entities "./enums" s.enumerations.keys]).flatMap introduced = s.enumerations.keys := by
    cases h : s.enumerations.entries <;>
      simp [OrderedMap.isEmpty, OrderedMap.keys, h, introduced]
  have hclass (entry : String × Class) :
      (ofClass s mapping entry :: ofSharedName entry).flatMap introduced =
        entry.1 :: entry.2.sharedName.toList := by
    cases h : entry.2.sharedName <;> simp [ofClass, ofSharedName, h, introduced]
  have haliases := introduced_map_entries s.aliases (ofAlias s mapping) fun _ => rfl
  have hrecords := introduced_map_entries s.records (ofRecord s mapping) fun _ => rfl
  have hinterfaces :=
    introduced_map_entries s.interfaces (ofInterface s mapping) fun _ => rfl
  simp only [statements, List.flatMap_append, List.flatMap_assoc, himports, introduced_opaqueTypes,
    haliases, hrecords, hclass, hinterfaces]
  simp [introduced, Spec.introducedNames]

theorem Python.introduced_statements (s : Spec) :
    (statements s).flatMap introduced = s.introducedNames := by
  have hclass (entry : String × Class) :
      (ofClass s mapping entry :: (ofSharedName entry).flatMap fun second =>
        [second, .blank]).flatMap introduced = entry.1 :: entry.2.sharedName.toList := by
    cases h : entry.2.sharedName <;> simp [ofClass, ofSharedName, h, introduced]
  have henumerations := introduced_map_entries s.enumerations ofEnumeration fun _ => rfl
  have haliases := introduced_map_entries s.aliases (ofAlias s mapping) fun _ => rfl
  have hrecords := introduced_map_entries s.records (ofRecord s mapping) fun _ => rfl
  have hinterfaces :=
    introduced_map_entries s.interfaces (ofInterface s mapping) fun _ => rfl
  simp only [statements, List.flatMap_append, List.flatMap_assoc, henumerations,
    introduced_opaqueTypes, haliases, hrecords, hclass, hinterfaces]
  simp [introduced, Spec.introducedNames]

theorem TargetId.introduced_statements (id : TargetId) (s : Spec) :
    (id.statements s).flatMap introduced = s.introducedNames := by
  cases id with
  | typescript => exact TypeScript.introduced_statements s
  | python => exact Python.introduced_statements s

theorem Spec.introducedNames_perm (s : Spec) : s.introducedNames.Perm s.declaredNames := by
  have hclasses : (s.classes.entries.flatMap fun entry => entry.1 :: entry.2.sharedName.toList).Perm
      (s.classes.keys ++ s.sharedNames) := by
    have happend := List.flatMap_append_perm s.classes.entries (fun entry => [entry.1])
      fun entry => entry.2.sharedName.toList
    rw [← List.map_eq_flatMap] at happend
    refine happend.symm.trans (List.Perm.append_left _ (List.Perm.of_eq ?_))
    rw [sharedNames, OrderedMap.values, List.filterMap_map, List.filterMap_eq_flatMap_toList]
    rfl
  rw [List.perm_iff_count] at hclasses ⊢
  intro name
  have hname := hclasses name
  simp only [introducedNames, declaredNames, declarations, List.map_append, List.map_map,
    Function.comp_def, List.map_id', List.count_append] at hname ⊢
  omega

/-! ## One kind of statement after the other -/

/-- The statements that are the same for every spec. -/
def Statement.fixed : List Statement :=
  [.comment generatedBanner, .words "enum" ["Enum", "IntFlag"],
    .words "typing" ["Annotated", "Any", "Callable", "NoReturn", "NotRequired", "Protocol",
      "TypeAlias", "TypedDict", "final", "overload"],
    .blank, .comment "Enums", .comment "Opaque types", .comment "Type aliases", .comment "Records",
    .comment "Classes", .comment "Interfaces"]

theorem TargetId.forall_statements {id : TargetId} {s : Spec} {p : Statement → Prop}
    (hfixed : ∀ st ∈ Statement.fixed, p st) (himports : p (.entities "./enums" s.enumerations.keys))
    (henumerations : ∀ entry ∈ s.enumerations.entries, p (.ofEnumeration entry))
    (hopaqueTypes : ∀ name ∈ s.opaqueTypes, p (.opaqueType name))
    (haliases : ∀ entry ∈ s.aliases.entries, p (.ofAlias s (Target.ofId id).mapping entry))
    (hrecords : ∀ entry ∈ s.records.entries, p (.ofRecord s (Target.ofId id).mapping entry))
    (hclasses : ∀ entry ∈ s.classes.entries, p (.ofClass s (Target.ofId id).mapping entry) ∧
      ∀ shared, p (.typeAlias shared (.declared entry.1)))
    (hinterfaces : ∀ entry ∈ s.interfaces.entries,
      p (.ofInterface s (Target.ofId id).mapping entry)) :
    ∀ st ∈ id.statements s, p st := by
  simp only [Statement.fixed, List.forall_mem_cons] at hfixed
  obtain ⟨hbanner, henum, htyping, hblank, henums, hmarkers, htypes, hrecord, hclass, hinterface,
    -⟩ := hfixed
  have hshared : ∀ entry ∈ s.classes.entries, ∀ st ∈ Statement.ofSharedName entry, p st := by
    intro entry hentry st hst
    obtain ⟨shared, -, rfl⟩ := Option.map_eq_some_iff.1 (Option.mem_toList.1 hst)
    exact (hclasses entry hentry).2 shared
  cases id with
  | typescript =>
      have hentities : ∀ st ∈ (if s.enumerations.isEmpty then []
          else [Statement.entities "./enums" s.enumerations.keys]), p st := by
        split
        · exact List.forall_mem_nil _
        · exact List.forall_mem_singleton.2 himports
      simp only [TargetId.statements, TypeScript.statements, List.forall_mem_append,
        List.forall_mem_map, List.forall_mem_flatMap, List.forall_mem_singleton,
        List.forall_mem_cons, and_assoc]
      exact ⟨hbanner, hentities, hmarkers, hopaqueTypes, htypes, haliases, hrecord, hrecords,
        hclass, fun entry he => ⟨(hclasses entry he).1, hshared entry he⟩, hinterface,
        hinterfaces⟩
  | python =>
      simp only [TargetId.statements, Python.statements, List.forall_mem_append,
        List.forall_mem_map, List.forall_mem_flatMap, List.forall_mem_cons,
        iff_true_intro (List.forall_mem_nil p), and_true, and_assoc]
      exact ⟨hbanner, henum, htyping, hblank, henums, henumerations, hmarkers, hopaqueTypes, htypes,
        haliases, hblank, hrecord, hrecords, hclass, fun entry he => ⟨(hclasses entry he).1,
          fun st hst => ⟨hshared entry he st hst, hblank⟩⟩, hinterface, hinterfaces⟩

/-! ## Statements with members -/

namespace Statement

variable {id : TargetId} {s : Spec} {name : String} {members : List Member}

theorem record_mem_statements_iff :
    .record name members ∈ id.statements s ↔
      ∃ entry ∈ s.records.entries,
        ofRecord s (Target.ofId id).mapping entry = .record name members := by
  cases id with
  | typescript =>
      simp [TargetId.statements, TypeScript.statements, ofAlias, ofClass, ofInterface,
        ofSharedName, Target.ofId, TypeScript.target]
  | python =>
      simp [TargetId.statements, Python.statements, ofAlias, ofClass, ofInterface, ofEnumeration,
        ofSharedName, Target.ofId, Python.target]

theorem objectClass_mem_statements_iff :
    .objectClass name members ∈ id.statements s ↔
      ∃ entry ∈ s.classes.entries,
        .objectClass name members = ofClass s (Target.ofId id).mapping entry := by
  cases id with
  | typescript =>
      simp [TargetId.statements, TypeScript.statements, ofAlias, ofRecord, ofInterface,
        ofSharedName, Target.ofId, TypeScript.target]
  | python =>
      simp [TargetId.statements, Python.statements, ofAlias, ofRecord, ofInterface, ofEnumeration,
        ofSharedName, Target.ofId, Python.target]

theorem interface_mem_statements_iff :
    .interface name members ∈ id.statements s ↔
      ∃ entry ∈ s.interfaces.entries,
        ofInterface s (Target.ofId id).mapping entry = .interface name members := by
  cases id with
  | typescript =>
      simp [TargetId.statements, TypeScript.statements, ofAlias, ofRecord, ofClass,
        ofSharedName, Target.ofId, TypeScript.target]
  | python =>
      simp [TargetId.statements, Python.statements, ofAlias, ofRecord, ofClass, ofEnumeration,
        ofSharedName, Target.ofId, Python.target]

theorem ofEnumeration_mem_statements {entry : String × Enumeration}
    (h : entry ∈ s.enumerations.entries) : ofEnumeration entry ∈ TargetId.python.statements s := by
  simp only [TargetId.statements, Python.statements, List.mem_append]
  simp [List.mem_map_of_mem h]

end Statement

/-! ## The types of the statements -/

/-- What holds of every type of a spec, and of what its second names stand for. -/
def Spec.AllShapes (s : Spec) (m : Mapping) (p : Shape → Prop) : Prop :=
  (∀ t, s.HasType t → p (t.shape s m)) ∧
    ∀ entry ∈ s.classes.entries, entry.2.sharedName.isSome = true → p (.declared entry.1)

theorem Spec.allShapes_iff_entities {s : Spec} {m : Mapping} {p : Shape → Prop} :
    s.AllShapes m p ↔
      (∀ entry ∈ s.aliases.entries, ∀ x ∈ (ofAlias s m entry).shapes, p x) ∧
      (∀ entry ∈ s.records.entries, ∀ x ∈ (ofRecord s m entry).shapes, p x) ∧
      (∀ entry ∈ s.classes.entries, (∀ x ∈ (ofClass s m entry).shapes, p x) ∧
        ∀ st ∈ ofSharedName entry, ∀ x ∈ st.shapes, p x) ∧
      ∀ entry ∈ s.interfaces.entries, ∀ x ∈ (ofInterface s m entry).shapes, p x := by
  simp only [AllShapes, forall_shapes_ofAlias, forall_shapes_ofRecord, forall_shapes_ofClass,
    forall_shapes_ofInterface, forall_shapes_ofSharedName, forall_hasType_iff_entities,
    OrderedMap.forall_mem_values]
  constructor
  · rintro ⟨⟨haliases, hrecords, hclasses, hinterfaces⟩, hshared⟩
    exact ⟨haliases, hrecords, fun entry he => ⟨hclasses entry he, hshared entry he⟩, hinterfaces⟩
  · rintro ⟨haliases, hrecords, hclasses, hinterfaces⟩
    exact ⟨⟨haliases, hrecords, fun entry he => (hclasses entry he).1, hinterfaces⟩,
      fun entry he => (hclasses entry he).2⟩

theorem TypeScript.forall_shapes_statements {s : Spec} {p : Shape → Prop} :
    (∀ st ∈ statements s, ∀ x ∈ st.shapes, p x) ↔ s.AllShapes mapping p := by
  have himports : ∀ st ∈ (if s.enumerations.isEmpty then []
      else [entities "./enums" s.enumerations.keys]), ∀ x ∈ st.shapes, p x := by
    cases s.enumerations.isEmpty <;> simp
  simp only [Spec.allShapes_iff_entities, statements, List.forall_mem_append, List.forall_mem_map,
    List.forall_mem_flatMap, List.forall_mem_cons, List.not_mem_nil, IsEmpty.forall_iff,
    shapes_comment, shapes_opaqueType, iff_true_intro himports, implies_true, and_true, true_and,
    and_assoc]

theorem Python.forall_shapes_statements {s : Spec} {p : Shape → Prop} :
    (∀ st ∈ statements s, ∀ x ∈ st.shapes, p x) ↔ s.AllShapes mapping p := by
  simp only [Spec.allShapes_iff_entities, statements, List.forall_mem_append, List.forall_mem_map,
    List.forall_mem_flatMap, List.forall_mem_cons, List.not_mem_nil, IsEmpty.forall_iff,
    shapes_comment, shapes_blank, shapes_words, shapes_ofEnumeration, shapes_opaqueType,
    implies_true, and_true, true_and, and_assoc]

theorem TargetId.forall_shapes_statements {id : TargetId} {s : Spec} {p : Shape → Prop} :
    (∀ st ∈ id.statements s, ∀ x ∈ st.shapes, p x) ↔ s.AllShapes (Target.ofId id).mapping p := by
  cases id with
  | typescript => exact TypeScript.forall_shapes_statements
  | python => exact Python.forall_shapes_statements

/-! ## References -/

theorem Target.declared_ofId (id : TargetId) (name : String) :
    (ofId id).mapping.declared name = entityIdentifier name := by
  cases id <;> rfl

/-- Whatever a statement refers to is declared. -/
theorem TargetId.references_subset (id : TargetId) (s : Spec) :
    ∀ st ∈ id.statements s, ∀ x ∈ st.shapes, x.references ⊆ s.declaredNames := by
  rw [forall_shapes_statements]
  refine ⟨fun t _ => t.references_shape_subset s _, fun entry he _ => ?_⟩
  have hmem : entry.1 ∈ s.declaredNames := by
    refine s.introducedNames_perm.mem_iff.1 ?_
    simp only [Spec.introducedNames, List.mem_append, List.mem_flatMap, List.mem_cons]
    exact .inl (.inr ⟨entry, he, .inl rfl⟩)
  exact List.cons_subset.2 ⟨hmem, List.nil_subset _⟩

end Bindery
