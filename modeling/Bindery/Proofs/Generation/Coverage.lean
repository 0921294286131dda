import Bindery.Proofs.Generation.Agreement
import Bindery.Proofs.Target.Statement

/-!
# Warnings and issues

Coverage looks at what a spec lists, resolution at what its types use. `coverage_predicts_issues`:
what is missed because the target has no word for it was warned of, and a spec that lists all that
it uses has no issues without a warning.
-/

namespace Bindery

/-! ## Issues of a type -/

/-- An issue about a primitive is about one that the spec lists and the vocabulary lacks, and one
about a template is about one that the vocabulary lacks, unless it has a detail. -/
structure Issue.Uncovered (s : Spec) (v : Vocabulary) (i : Issue) : Prop where
  primitive : i.kind = .unmappablePrimitive → i.identifier ∈ s.primitives ∧
    i.identifier ∉ v.primitives
  template : i.kind = .unmappableTemplate → i.detail = none →
    i.identifier ∉ v.templates.map Prod.fst

namespace TypeExpr

variable {s : Spec} {v : Vocabulary} {location : String}

theorem uncovered_of_mem_nameMisses {fullName : String} {i : Issue}
    (h : i ∈ nameMisses s v location fullName) : i.Uncovered s v := by
  rw [nameMisses] at h
  split at h
  next => cases h
  next hunknown =>
    split at h
    next hlisted =>
      cases List.mem_singleton.1 h
      exact ⟨fun _ => ⟨hlisted, fun hmem => hunknown (.inr hmem)⟩, fun hkind => by cases hkind⟩
    next =>
      cases List.mem_singleton.1 h
      constructor <;> intro hkind <;> cases hkind

theorem uncovered_of_mem_templateMisses {fullName : String} {count : Nat} {inner : List Issue}
    {i : Issue} (hinner : ∀ i ∈ inner, i.Uncovered s v)
    (h : i ∈ templateMisses v location fullName count inner) : i.Uncovered s v := by
  rw [templateMisses] at h
  cases hlookup : v.templates.lookup fullName with
  | none =>
      rw [hlookup] at h
      cases List.mem_singleton.1 h
      refine ⟨fun hkind => (by cases hkind), fun _ _ hmem => ?_⟩
      have hsome := isSome_lookup_iff.2 hmem
      rw [hlookup] at hsome
      cases hsome
  | some arity =>
      rw [hlookup] at h
      rcases List.mem_append.1 h with h | h
      · exact hinner i h
      · split at h
        next => cases h
        next =>
          cases List.mem_singleton.1 h
          constructor
          · intro hkind
            cases hkind
          · intro _ hdetail
            cases hdetail

theorem uncovered_of_mem_misses (t : TypeExpr) :
    ∀ i ∈ t.misses s v location, i.Uncovered s v := by
  induction t with
  | name path isConst indirection => exact fun i hi => uncovered_of_mem_nameMisses hi
  | template path arguments isConst ih =>
      rw [misses, missesAll_eq_flatMap]
      exact fun i hi => uncovered_of_mem_templateMisses (List.forall_mem_flatMap.2 ih) hi
  | function arguments result isConst isNoExcept hargs hresult =>
      rw [misses, missesArguments_eq_flatMap, List.forall_mem_append, List.forall_mem_flatMap]
      exact ⟨hargs, hresult⟩

/-- The spec lists what a node of a type uses, and a template takes so many arguments. -/
def Listed (s : Spec) (v : Vocabulary) : TypeExpr → Prop
  | .name path _ _ => joinPath path ∈ s.declaredNames ∨ joinPath path ∈ s.primitives
  | .template path arguments _ => joinPath path ∈ s.templates ∧
    ∀ arity, v.templates.lookup (joinPath path) = some arity → arguments.length = arity
  | .function .. => True

theorem misses_eq_nil_of_listed (hprimitives : ∀ name ∈ s.primitives, name ∈ v.primitives)
    (htemplates : ∀ name ∈ s.templates, name ∈ v.templates.map Prod.fst) (t : TypeExpr) :
    (∀ u, Occurs u t → u.Listed s v) → t.misses s v location = [] := by
  induction t with
  | name path isConst indirection =>
      rw [forall_occurs_name]
      intro h
      exact nameMisses_eq_nil_iff.2 (h.imp id (hprimitives _))
  | template path arguments isConst ih =>
      rw [forall_occurs_template]
      rintro ⟨⟨hlisted, harity⟩, hargs⟩
      obtain ⟨arity, hlookup⟩ :=
        Option.isSome_iff_exists.1 (isSome_lookup_iff.2 (htemplates _ hlisted))
      refine misses_template_eq_nil_iff.2 ⟨?_, fun a ha => ih a ha (hargs a ha)⟩
      rw [hlookup, harity arity hlookup]
  | function arguments result isConst isNoExcept hargs hresult =>
      rw [forall_occurs_function]
      rintro ⟨-, harguments, hall⟩
      exact misses_function_eq_nil_iff.2 ⟨fun a ha => hargs a ha (harguments a ha), hresult hall⟩

end TypeExpr

/-! ## Issues of a spec -/

namespace Spec

variable {s : Spec} {v : Vocabulary}

theorem uncovered_of_mem_misses : ∀ i ∈ s.misses v, i.Uncovered s v := by
  intro i hi
  obtain ⟨visit, -, hi⟩ := List.mem_flatMap.1 hi
  cases visit with
  | entity kind name => cases hi
  | type location t => exact t.uncovered_of_mem_misses i hi

theorem primitive_mem_uncovered {name : String} (hlisted : name ∈ s.primitives)
    (hlacks : name ∉ v.primitives) : .primitive name ∈ s.uncovered v :=
  List.mem_append_left _ (List.mem_map_of_mem (List.mem_filter.2 ⟨hlisted, by simpa using hlacks⟩))

theorem template_mem_uncovered {name : String} (hlisted : name ∈ s.templates)
    (hlacks : name ∉ v.templates.map Prod.fst) : .template name ∈ s.uncovered v :=
  List.mem_append_right _ (List.mem_map_of_mem (List.mem_filter.2 ⟨hlisted, by simpa using hlacks⟩))

theorem misses_eq_nil_of_listed (huncovered : s.uncovered v = [])
    (h : ∀ t, s.HasType t → ∀ u, TypeExpr.Occurs u t → u.Listed s v) : s.misses v = [] := by
  have hprimitives : ∀ name ∈ s.primitives, name ∈ v.primitives := by
    intro name hlisted
    by_contra hlacks
    exact List.ne_nil_of_mem (primitive_mem_uncovered hlisted hlacks) huncovered
  have htemplates : ∀ name ∈ s.templates, name ∈ v.templates.map Prod.fst := by
    intro name hlisted
    by_contra hlacks
    exact List.ne_nil_of_mem (template_mem_uncovered hlisted hlacks) huncovered
  have hvisits : ∀ visit ∈ s.typeVisits,
      VisitHolds (fun t => ∀ location, t.misses s v location = []) visit :=
    forall_typeVisits_iff.2 fun t ht _ =>
      TypeExpr.misses_eq_nil_of_listed hprimitives htemplates t (h t ht)
  refine List.flatMap_eq_nil_iff.2 fun visit hvisit => ?_
  cases visit with
  | entity kind name => rfl
  | type location t => exact hvisits _ hvisit location

end Spec

/-! ## Issues of a run -/

/-- A sink that refuses a unit keeps the later ones, and their issues, from the report. -/
theorem Emission.issues_ofStages_prefix {σ : Type} (sink : Sink σ) (stages : List Stage)
    (state : σ) : (ofStages sink stages state).1.issues <+: stages.flatMap Stage.issues := by
  induction stages generalizing state with
  | nil => exact List.prefix_refl _
  | cons stage stages ih =>
      rw [List.flatMap_cons]
      cases hresult : (sink.close stage.unit state).result with
      | error fault =>
          simp only [ofStages, hresult]
          exact List.prefix_append _ _
      | ok summary =>
          simp only [ofStages, hresult]
          exact (List.prefix_append_right_inj _).2 (ih _)

namespace TargetReport

theorem issues_generate_prefix {σ : Type} (id : TargetId) (s : Spec)
    (bridgeModule : Option String) (sink : Sink σ) (state : σ)
    (h : s.validate (Target.ofId id).identifiers = []) :
    let report := (generate (.ofId id) s bridgeModule sink state).report
    report.issues <+: s.misses .registered ∧ report.coverage = s.uncovered .registered := by
  obtain ⟨stages, hstages, hissues⟩ := Target.stages_of_sound id ((s.validate_eq_nil_iff _).1 h)
    (bridgeModule.getD (Target.ofId id).bridgeModule)
  have hbegins := Emission.issues_ofStages_prefix sink stages state
  rw [hissues, Target.vocabulary_ofId] at hbegins
  rw [← Target.vocabulary_ofId id, ← Spec.coverage_eq_uncovered, Target.vocabulary_ofId]
  cases habort : (Emission.ofStages sink stages state).1.abort <;>
    simpa [generate, h, Emission.ofSpec_of_stages hstages, habort, aborted] using hbegins

/-- Every issue about a primitive was warned of, and so was every issue about a template that the
spec lists, unless it is about the number of arguments. Without a warning there are no issues, if
the spec lists what its types use and templates have as many arguments as they take. -/
theorem coverage_predicts_issues {σ : Type} (id : TargetId) (s : Spec)
    (bridgeModule : Option String) (sink : Sink σ) (state : σ)
    (h : s.validate (Target.ofId id).identifiers = []) :
    let report := (generate (.ofId id) s bridgeModule sink state).report
    (∀ i ∈ report.issues, i.kind = .unmappablePrimitive →
      .primitive i.identifier ∈ report.coverage) ∧
    (∀ i ∈ report.issues, i.kind = .unmappableTemplate → i.detail = none →
      i.identifier ∈ s.templates → .template i.identifier ∈ report.coverage) ∧
    (report.coverage = [] →
      (∀ t, s.HasType t → ∀ path isConst indirection,
        TypeExpr.Occurs (.name path isConst indirection) t →
        joinPath path ∈ s.declaredNames ∨ joinPath path ∈ s.primitives) →
      (∀ t, s.HasType t → ∀ path arguments isConst,
        TypeExpr.Occurs (.template path arguments isConst) t → joinPath path ∈ s.templates ∧
        ∀ rule, (Target.ofId id).mapping.template? (joinPath path) = some rule →
          arguments.length = rule.arity) →
      report.issues = []) := by
  intro report
  obtain ⟨hbegins, hcoverage⟩ :
      report.issues <+: s.misses .registered ∧ report.coverage = s.uncovered .registered :=
    issues_generate_prefix id s bridgeModule sink state h
  have huncovered : ∀ i ∈ report.issues, i.Uncovered s .registered := fun i hi =>
    s.uncovered_of_mem_misses i (hbegins.subset hi)
  rw [hcoverage]
  refine ⟨fun i hi hkind => ?_, fun i hi hkind hdetail hlisted => ?_,
    fun hnone hnames htemplates => ?_⟩
  · obtain ⟨hlisted, hlacks⟩ := (huncovered i hi).primitive hkind
    exact Spec.primitive_mem_uncovered hlisted hlacks
  · exact Spec.template_mem_uncovered hlisted ((huncovered i hi).template hkind hdetail)
  · have hmisses : s.misses .registered = [] := by
      refine Spec.misses_eq_nil_of_listed hnone fun t ht u hu => ?_
      cases u with
      | name path isConst indirection => exact hnames t ht _ _ _ hu
      | template path arguments isConst =>
          obtain ⟨hlisted, harity⟩ := htemplates t ht _ _ _ hu
          refine ⟨hlisted, fun arity hlookup => ?_⟩
          rw [← Target.vocabulary_ofId id, Vocabulary.lookup_templates,
            Option.map_eq_some_iff] at hlookup
          obtain ⟨rule, hrule, rfl⟩ := hlookup
          exact harity rule hrule
      | function arguments result isConst isNoExcept => trivial
    rw [hmisses] at hbegins
    exact List.prefix_nil.1 hbegins

/-- A spec that lists a primitive and a template, and uses both below a function. -/
def listedSpec : Spec where
  primitives := ["int"]
  templates := ["std::vector"]
  aliases := .ofList [("Visitor", .function [("handle", .name ["Handle"] false {})]
    (.template ["std", "vector"] [.name ["int"] false {}] true) false false)]
  opaqueTypes := ["Handle"]

theorem coverage_predicts_issues_listedSpec :
    ((∀ id, gappySpec.validate (Target.ofId id).identifiers = []) ∧
      ∀ id : TargetId, let report := (generate (.ofId id) gappySpec none Sink.memory ∅).report
        ⟨.unmappablePrimitive, "Decimal", "class Session.close", none⟩ ∈ report.issues ∧
        .primitive "Decimal" ∈ report.coverage ∧
        ⟨.unmappableTemplate, "std::map", "record Point.x", none⟩ ∈ report.issues ∧
        .template "std::map" ∈ report.coverage) ∧
    (∀ id, listedSpec.validate (Target.ofId id).identifiers = []) ∧
      ∀ id : TargetId, (generate (.ofId id) listedSpec none Sink.memory ∅).report.issues = [] := by
  have hgappy : ∀ id, gappySpec.validate (Target.ofId id).identifiers = [] := by
    intro id
    cases id <;> decide +kernel
  have hlisted : ∀ id, listedSpec.validate (Target.ofId id).identifiers = [] := by
    intro id
    cases id <;> decide +kernel
  have hoccurs : ∀ t, listedSpec.HasType t → ∀ u, TypeExpr.Occurs u t →
      u.Listed listedSpec .registered := by
    refine Spec.forall_hasType_iff_entities.2 ⟨List.forall_mem_singleton.2 ?_, nofun, nofun, nofun⟩
    rw [TypeExpr.forall_occurs_function, List.forall_mem_singleton, TypeExpr.forall_occurs_name,
      TypeExpr.forall_occurs_template, List.forall_mem_singleton, TypeExpr.forall_occurs_name]
    refine ⟨trivial, .inl (by decide +kernel), ⟨by decide +kernel, fun arity hlookup => ?_⟩,
      .inr (by decide +kernel)⟩
    exact Option.some.inj (hlookup ▸ (by decide +kernel))
  refine ⟨⟨hgappy, fun id => ?_⟩, hlisted, fun id => ?_⟩
  · have hissues := (generate_eq_misses id gappySpec none ∅ (hgappy id)).2.1
    obtain ⟨hprimitive, htemplate, -⟩ :=
      coverage_predicts_issues id gappySpec none Sink.memory ∅ (hgappy id)
    have hdecimal : ⟨.unmappablePrimitive, "Decimal", "class Session.close", none⟩ ∈
        (generate (.ofId id) gappySpec none Sink.memory ∅).report.issues := by
      rw [hissues]
      decide +kernel
    have hmap : ⟨.unmappableTemplate, "std::map", "record Point.x", none⟩ ∈
        (generate (.ofId id) gappySpec none Sink.memory ∅).report.issues := by
      rw [hissues]
      decide +kernel
    exact ⟨hdecimal, hprimitive _ hdecimal rfl, hmap,
      htemplate _ hmap rfl rfl (by decide +kernel)⟩
  · refine (coverage_predicts_issues id listedSpec none Sink.memory ∅ (hlisted id)).2.2 ?_ ?_ ?_
    · cases id <;> decide +kernel
    · exact fun t ht _ _ _ hu => hoccurs t ht _ hu
    · intro t ht path arguments isConst hu
      obtain ⟨hlisted, harity⟩ := hoccurs t ht _ hu
      refine ⟨hlisted, fun rule hrule => harity _ ?_⟩
      rw [← Target.vocabulary_ofId id, Vocabulary.lookup_templates, hrule]
      rfl

end TargetReport

end Bindery
