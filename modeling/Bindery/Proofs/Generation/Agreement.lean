import Bindery.Proofs.Generation.Memory

/-!
# Both targets report the same

The targets write types each in their own way, but they have the same words and meet the types of a
spec in the same order. `issues_generate_agree`: so their reports name the same issues and warn of
the same words, and the issues are those of the walk.
-/

namespace Bindery

/-- The words that every registered target has. -/
def Vocabulary.registered : Vocabulary where
  primitives := ["void", "bool", "int", "int64_t", "int32_t", "uint64_t", "std::string",
    "StringData", "BinaryData", "OwnedBinaryData"]
  templates := [("std::vector", 1), ("util::Optional", 1), ("std::shared_ptr", 1)]

theorem Target.vocabulary_ofId (id : TargetId) :
    (Target.ofId id).mapping.vocabulary = .registered := by
  cases id <;> rfl

/-- What a spec says that it uses and a vocabulary lacks. -/
def Spec.uncovered (s : Spec) (v : Vocabulary) : List CoverageWarning :=
  (s.primitives.filter fun name => name ∉ v.primitives).map .primitive ++
  (s.templates.filter fun name => name ∉ v.templates.map Prod.fst).map .template

theorem Vocabulary.mem_templates {m : Mapping} {fullName : String} :
    fullName ∈ m.vocabulary.templates.map Prod.fst ↔ (m.template? fullName).isSome = true := by
  simp [Mapping.vocabulary, Mapping.template?, List.lookup_isSome_iff]

theorem Spec.coverage_eq_uncovered (s : Spec) (m : Mapping) :
    s.coverage m = s.uncovered m.vocabulary := by
  simp only [coverage, uncovered, Vocabulary.mem_primitives, Vocabulary.mem_templates,
    Bool.not_eq_true, Option.isSome_eq_false_iff, Bool.decide_eq_true]

namespace TargetReport

/-- The report of a spec without violations, up to its units. -/
theorem generate_eq_misses (id : TargetId) (s : Spec) (bridgeModule : Option String) (shelf : Shelf)
    (h : s.validate (Target.ofId id).identifiers = []) :
    let report := (generate (.ofId id) s bridgeModule Sink.memory shelf).report
    report.error = none ∧ report.issues = s.misses .registered ∧
      report.coverage = s.uncovered .registered := by
  have hsound := (s.validate_eq_nil_iff _).1 h
  obtain ⟨stages, hstages, hissues⟩ := Target.stages_of_sound id hsound
    (bridgeModule.getD (Target.ofId id).bridgeModule)
  have hreport := (generate_memory shelf h hstages).1
  rw [Target.vocabulary_ofId] at hissues
  simp only [hreport, hissues, Spec.coverage_eq_uncovered, Target.vocabulary_ofId, and_self]

/-- A spec without violations for both targets has the same issues and the same coverage in both
reports. The issues are those of the walk: aliases, fields, and the members of classes and of
interfaces, each with its place. -/
theorem issues_generate_agree (s : Spec) (bridgeModule : TargetId → Option String)
    (shelf : TargetId → Shelf) (h : ∀ id, s.validate (Target.ofId id).identifiers = []) :
    let report id := (generate (.ofId id) s (bridgeModule id) Sink.memory (shelf id)).report
    (report .typescript).issues = (report .python).issues ∧
    (report .typescript).coverage = (report .python).coverage ∧
    ∀ id, (report id).error = none ∧ (report id).issues = s.misses .registered := by
  intro report
  have hreport id := generate_eq_misses id s (bridgeModule id) (shelf id) (h id)
  obtain ⟨-, htsIssues, htsCoverage⟩ := hreport .typescript
  obtain ⟨-, hpyIssues, hpyCoverage⟩ := hreport .python
  refine ⟨htsIssues.trans hpyIssues.symm, htsCoverage.trans hpyCoverage.symm, fun id => ?_⟩
  obtain ⟨herror, hissues, -⟩ := hreport id
  exact ⟨herror, hissues⟩

/-- A spec that misses something at every kind of place. -/
def gappySpec : Spec where
  primitives := ["Decimal", "int"]
  templates := ["std::map"]
  aliases := .ofList [("Callback", .function
    [("old_value", .name ["Missing"] true { pointer := true })]
    (.applied "std::vector" [.named "int", .named "Decimal"]) false true)]
  records := .ofList [("Point", ⟨.ofList [("x", { type := .applied "std::map" [.named "Lost"] })]⟩)]
  classes := .ofList [("Session", {
    sharedName := some "SharedSession"
    staticMethods := .ofList [("open", [{
      arguments := [("config", .named "Point")], result := .named "SharedSession" }])]
    properties := .ofList [("state", .applied "util::Optional" [.named "Mode"])]
    methods := .ofList [("close", [
      { result := .named "Decimal" },
      { arguments := [("now", .named "bool")], result := .named "void" }])] })]
  interfaces := .ofList [("Listener", ⟨.ofList [("notify", [{
    arguments := [("at", .named "a::B")], result := .named "void" }])]⟩)]

theorem issues_generate_gappySpec :
    (∀ id, gappySpec.validate (Target.ofId id).identifiers = []) ∧
    let report id := (generate (.ofId id) gappySpec none Sink.memory ∅).report
    (report .typescript).issues = (report .python).issues ∧
    (report .typescript).coverage = (report .python).coverage ∧
    ∀ id, (report id).error = none ∧ (report id).issues = [
      ⟨.unresolvedIdentifier, "Missing", "type alias Callback", none⟩,
      ⟨.unmappablePrimitive, "Decimal", "type alias Callback", none⟩,
      ⟨.unmappableTemplate, "std::vector", "type alias Callback",
        some "expected 1 argument(s), found 2"⟩,
      ⟨.unmappableTemplate, "std::map", "record Point.x", none⟩,
      ⟨.unresolvedIdentifier, "Mode", "class Session.state", none⟩,
      ⟨.unmappablePrimitive, "Decimal", "class Session.close", none⟩,
      ⟨.unresolvedIdentifier, "a::B", "interface Listener.notify", none⟩] := by
  have h : ∀ id, gappySpec.validate (Target.ofId id).identifiers = [] := by
    intro id
    cases id <;> decide +kernel
  exact ⟨h, issues_generate_agree gappySpec (fun _ => none) (fun _ => ∅) h⟩

end TargetReport

end Bindery
