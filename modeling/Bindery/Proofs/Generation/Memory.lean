import Bindery.Proofs.Generation.Stages
import Bindery.Proofs.Target.Walk

/-!
# Generating into memory

Memory refuses no unit. So a spec without violations is written to the end: the report has every
issue of the stages, and every unit is on the shelf.
-/

namespace Bindery

namespace Sink

/-- The shelf after the units of some stages. -/
def shelve (stages : List Stage) (shelf : Shelf) : Shelf :=
  stages.foldl (fun shelf stage => shelf.insert stage.unit.name stage.unit) shelf

end Sink

namespace Emission

theorem ofStages_memory (stages : List Stage) (shelf : Shelf) :
    ofStages Sink.memory stages shelf =
      ({ units := stages.map fun stage => Sink.summary stage.unit
         issues := stages.flatMap Stage.issues
         log := stages.flatMap Stage.log }, Sink.shelve stages shelf) := by
  induction stages generalizing shelf with
  | nil => rfl
  | cons stage stages ih =>
      have hclose : Sink.memory.close stage.unit shelf =
          { result := .ok (Sink.summary stage.unit)
            state := shelf.insert stage.unit.name stage.unit } := rfl
      simp [ofStages, hclose, ih, Sink.shelve]

end Emission

namespace Target

/-- A target can write every spec whose values fit. -/
theorem stages_of_valuesFit (id : TargetId) {s : Spec} (h : s.ValuesFit) (bridgeModule : String) :
    ∃ stages, (ofId id).stages s bridgeModule = .ok stages ∧
      stages.flatMap Stage.issues = s.misses (ofId id).mapping.vocabulary ∧
      stages.map (·.unit.name) = (ofId id).unitNames := by
  cases id with
  | typescript =>
      refine ⟨_, TypeScript.stages_eq h bridgeModule, ?_, rfl⟩
      simp only [List.flatMap_cons, List.flatMap_nil, List.nil_append, List.append_nil]
      exact TypeScript.issues_declarations s
  | python =>
      refine ⟨_, Python.stages_eq h bridgeModule, ?_, rfl⟩
      simp only [List.flatMap_cons, List.flatMap_nil, List.append_nil]
      exact Python.issues_declarations s

/-- A target can write every sound spec, whatever the identifiers it is sound for. -/
theorem stages_of_sound (id : TargetId) {s : Spec} {rules : IdentifierRules} (h : s.Sound rules)
    (bridgeModule : String) : ∃ stages, (ofId id).stages s bridgeModule = .ok stages ∧
      stages.flatMap Stage.issues = s.misses (ofId id).mapping.vocabulary := by
  obtain ⟨stages, hstages, hissues, -⟩ := stages_of_valuesFit id h.valuesFit bridgeModule
  exact ⟨stages, hstages, hissues⟩

/-- The names of the units of a sound spec. -/
theorem names_stages {id : TargetId} {s : Spec} {rules : IdentifierRules} {bridgeModule : String}
    {stages : List Stage} (h : s.Sound rules)
    (hstages : (ofId id).stages s bridgeModule = .ok stages) :
    stages.map (·.unit.name) = (ofId id).unitNames := by
  obtain ⟨stages', hstages', -, hnames⟩ := stages_of_valuesFit id h.valuesFit bridgeModule
  obtain rfl := Except.ok.inj (hstages'.symm.trans hstages)
  exact hnames

theorem nodup_unitNames (id : TargetId) : (ofId id).unitNames.Nodup := by
  cases id <;> decide

theorem unitNames_ne_nil (id : TargetId) : (ofId id).unitNames ≠ [] := by
  cases id <;> decide

end Target

namespace Emission

/-- A spec whose values fit is written into memory to the end. -/
theorem ofSpec_memory (id : TargetId) {s : Spec} (h : s.ValuesFit) (bridgeModule : Option String)
    (shelf : Shelf) : ∃ stages,
      (Target.ofId id).stages s (bridgeModule.getD (Target.ofId id).bridgeModule) = .ok stages ∧
      stages.map (·.unit.name) = (Target.ofId id).unitNames ∧
      let run := ofSpec (.ofId id) s bridgeModule Sink.memory shelf
      run.1.abort = none ∧ run.1.units = stages.map (fun stage => Sink.summary stage.unit) ∧
      run.1.issues = s.misses (Target.ofId id).mapping.vocabulary ∧
      run.2 = Sink.shelve stages shelf := by
  obtain ⟨stages, hstages, hissues, hnames⟩ := Target.stages_of_valuesFit id h
    (bridgeModule.getD (Target.ofId id).bridgeModule)
  refine ⟨stages, hstages, hnames, ?_⟩
  simp [ofSpec_of_stages hstages, ofStages_memory, hissues]

end Emission

namespace TargetReport

theorem generate_memory {id : TargetId} {s : Spec} {bridgeModule : Option String}
    {stages : List Stage} (shelf : Shelf) (h : s.validate (Target.ofId id).identifiers = [])
    (hstages : (Target.ofId id).stages s (bridgeModule.getD (Target.ofId id).bridgeModule) =
      .ok stages) :
    let run := generate (.ofId id) s bridgeModule Sink.memory shelf
    run.report = {
      target := id
      units := stages.map fun stage => Sink.summary stage.unit
      coverage := s.coverage (Target.ofId id).mapping
      issues := stages.flatMap Stage.issues } ∧
    run.state = Sink.shelve stages shelf := by
  obtain ⟨hreport, hstate⟩ := generate_of_stages Sink.memory shelf h hstages
  rw [Emission.ofStages_memory] at hreport hstate
  exact ⟨hreport, hstate⟩

end TargetReport

end Bindery
