import Bindery.Generation
import Bindery.Proofs.Target.Enumerations

/-!
# Emission, stage by stage

A stage is what a target does up to the close of a unit. `ofSpec_eq_ofCourse`: whatever the sink
is, a target hands over the units of its stages one after the other, until one is refused or nothing
but a refused enumeration is left.
-/

namespace Bindery

/-- What is noted and the issues that are met on the way to a unit, and the unit as it is closed. -/
structure Stage where
  log : List LogEntry := []
  issues : List Issue
  unit : OutputUnit

/-- The stages of actions, what comes up behind the last of them, and the enumeration that is
refused then. -/
structure Course where
  stages : List Stage := []
  log : List LogEntry := []
  issues : List Issue := []
  refusal : Option (List Violation) := none

/-- The course of actions. `log` and `issues` have come up since a unit was last closed. -/
def Course.ofActions (opened : List OutputUnit) (log : List LogEntry) (issues : List Issue) :
    List Action → Course
  | [] => { log, issues }
  | .note entries :: actions => ofActions opened (log ++ entries) issues actions
  | .start unit postProcess :: actions =>
    ofActions (opened ++ [{ name := unit, postProcess }]) log issues actions
  | .add unit block :: actions =>
    ofActions (Progress.addTo unit block.lines opened) log (issues ++ block.issues) actions
  | .refuse violations :: _ => { log, issues, refusal := some violations }
  | .close unit :: actions =>
    match opened.find? (·.name = unit) with
    | some u =>
      let rest := ofActions (opened.filter (·.name ≠ u.name)) [] [] actions
      { rest with stages := ⟨log, issues, u⟩ :: rest.stages }
    | none => ofActions opened log issues actions

namespace Target

/-- The course of all that a target does for a spec and a bridge module. -/
def course (t : Target) (s : Spec) (bridgeModule : String) : Course :=
  .ofActions [] [] [] (t.actions s bridgeModule)

/-- The stages for a spec and a bridge module, or what makes the first unfit enumeration unfit. -/
def stages (t : Target) (s : Spec) (bridgeModule : String) :
    Except (List Violation) (List Stage) :=
  match (t.course s bridgeModule).refusal with
  | none => .ok (t.course s bridgeModule).stages
  | some violations => .error violations

end Target

namespace Emission

/-- One emission behind another that was not aborted. -/
def andThen (a b : Emission) : Emission where
  units := a.units ++ b.units
  issues := a.issues ++ b.issues
  log := a.log ++ b.log
  abort := b.abort

theorem andThen_assoc (a b c : Emission) : (a.andThen b).andThen c = a.andThen (b.andThen c) := by
  simp [andThen]

@[simp] theorem empty_andThen (e : Emission) : andThen {} e = e := by
  cases e
  simp [andThen]

theorem andThen_empty {e : Emission} (h : e.abort = none) : e.andThen {} = e := by
  cases e
  cases h
  simp [andThen]

variable {σ : Type}

/-- Goes through stages until a unit is refused. -/
def ofStages (sink : Sink σ) : List Stage → σ → Emission × σ
  | [], state => ({}, state)
  | stage :: stages, state =>
    let closing := sink.close stage.unit state
    let log := stage.log ++ closing.log
    match closing.result with
    | .error fault =>
      ({ issues := stage.issues, log, abort := some (.output stage.unit.name fault) },
        closing.state)
    | .ok summary =>
      let (rest, state) := ofStages sink stages closing.state
      ({ rest with
        units := summary :: rest.units
        issues := stage.issues ++ rest.issues
        log := log ++ rest.log }, state)

/-- Goes through the stages of a course and, if no unit was refused, to its end. -/
def ofCourse (id : TargetId) (sink : Sink σ) (c : Course) (state : σ) : Emission × σ :=
  let (emission, state) := ofStages sink c.stages state
  if emission.abort.isSome then (emission, state)
  else
    (emission.andThen
      { log := c.log, issues := c.issues, abort := c.refusal.map (.invalidSpec id) }, state)

theorem ofCourse_stages (id : TargetId) (sink : Sink σ) (stages : List Stage) (state : σ) :
    ofCourse id sink { stages } state = ofStages sink stages state := by
  cases habort : (ofStages sink stages state).1.abort with
  | none => simp [ofCourse, habort, andThen_empty habort]
  | some abort => simp [ofCourse, habort]

theorem ofCourse_taken {id : TargetId} {sink : Sink σ} {stage : Stage} {state : σ}
    {summary : UnitSummary} (c : Course)
    (h : (sink.close stage.unit state).result = .ok summary) :
    ofCourse id sink { c with stages := stage :: c.stages } state =
      let closing := sink.close stage.unit state
      let taken : Emission :=
        { units := [summary], issues := stage.issues, log := stage.log ++ closing.log }
      let rest := ofCourse id sink c closing.state
      (taken.andThen rest.1, rest.2) := by
  simp only [ofCourse, ofStages, h]
  cases habort : (ofStages sink c.stages (sink.close stage.unit state).state).1.abort <;>
    simp [andThen, habort]

end Emission

/-! ## A run is a course -/

namespace Progress

variable {σ : Type} {id : TargetId} {sink : Sink σ}

theorem run_of_abort {p : Progress σ} (h : p.emission.abort.isSome = true)
    (actions : List Action) : run id sink actions p = p := by
  cases actions with
  | nil => rfl
  | cons action actions => rw [run, if_pos h]

theorem run_cons {p : Progress σ} (h : p.emission.abort = none) (action : Action)
    (actions : List Action) :
    run id sink (action :: actions) p = run id sink actions (p.act id sink action) := by
  rw [run, h]
  rfl

open Emission in
/-- What was done before, up to the last close, is kept apart from what has come up since. -/
theorem run_eq_ofCourse (actions : List Action) {p : Progress σ} (before : Emission)
    (log : List LogEntry) (issues : List Issue)
    (hp : p.emission = before.andThen { log, issues }) :
    let course := ofCourse id sink (.ofActions p.opened log issues actions) p.state
    (run id sink actions p).emission = before.andThen course.1 ∧
      (run id sink actions p).state = course.2 := by
  have hnone : p.emission.abort = none := by rw [hp]; rfl
  induction actions generalizing p before log issues with
  | nil => simp [run, hp, Course.ofActions, ofCourse, ofStages, andThen]
  | cons action actions ih =>
      rw [run_cons hnone]
      cases action with
      | note entries => exact ih before _ _ (by simp [act, hp, andThen]) (by simp [act, hnone])
      | start unit postProcess => exact ih before _ _ hp hnone
      | add unit block => exact ih before _ _ (by simp [act, hp, andThen]) (by simp [act, hnone])
      | refuse violations =>
          rw [run_of_abort rfl]
          simp [act, hp, Course.ofActions, ofCourse, ofStages, andThen]
      | close unit =>
          simp only [act, Course.ofActions]
          cases hunit : p.opened.find? (·.name = unit) with
          | none => exact ih before _ _ hp hnone
          | some u =>
              simp only [close]
              cases hresult : (sink.close u p.state).result with
              | error fault =>
                  rw [run_of_abort rfl]
                  simp [hp, ofCourse, ofStages, hresult, andThen]
              | ok summary =>
                  let taken : Emission :=
                    { units := [summary], issues, log := log ++ (sink.close u p.state).log }
                  rw [ofCourse_taken _ hresult, ← andThen_assoc]
                  exact ih (before.andThen taken) [] [] (by simp [hp, taken, andThen]) hnone

end Progress

/-- A target does what its course says. -/
theorem Emission.ofSpec_eq_ofCourse {σ : Type} (t : Target) (s : Spec)
    (bridgeModule : Option String) (sink : Sink σ) (state : σ) :
    ofSpec t s bridgeModule sink state =
      ofCourse t.id sink (t.course s (bridgeModule.getD t.bridgeModule)) state := by
  obtain ⟨hemission, hstate⟩ := @Progress.run_eq_ofCourse σ t.id sink
    (t.actions s (bridgeModule.getD t.bridgeModule)) { state } {} [] [] rfl
  rw [empty_andThen] at hemission
  exact Prod.ext hemission hstate

/-! ## The courses of the targets -/

/-- What is noted on the way through enumerations, which ends at the first that is refused. -/
def enumerationLog : List (String × Enumeration) → List LogEntry
  | [] => []
  | (name, e) :: entries =>
    .debug s!"emitting enum {name}" ::
      if Validation.ofMemberValues name e = [] then enumerationLog entries else []

namespace Progress

@[simp] theorem addTo_nil (unit : String) (opened : List OutputUnit) :
    addTo unit [] opened = opened := by
  simp [addTo, OutputUnit.addLines]

theorem addTo_addTo (unit : String) (a b : List String) (opened : List OutputUnit) :
    addTo unit b (addTo unit a opened) = addTo unit (a ++ b) opened := by
  rw [addTo, addTo, List.map_map]
  refine List.map_congr_left fun u _ => ?_
  by_cases h : u.name = unit <;> simp [h, OutputUnit.addLines]

end Progress

/-- The first enumeration with a violation ends a course, with all the violations it has. -/
theorem Course.ofActions_enumerationActions (r : Resolver) (unit : String)
    (write : String → Enumeration → List Constant → List String)
    (entries : List (String × Enumeration)) (actions : List Action) (opened : List OutputUnit)
    (log : List LogEntry) (issues : List Issue) :
    ofActions opened log issues (enumerationActions r unit write entries ++ actions) =
      match (entries.map fun entry => Validation.ofMemberValues entry.1 entry.2).find? (· ≠ []) with
      | none =>
        ofActions (Progress.addTo unit (entries.flatMap fun entry =>
          write entry.1 entry.2 entry.2.constants) opened) (log ++ enumerationLog entries)
          issues actions
      | some violations =>
        { log := log ++ enumerationLog entries, issues, refusal := some violations } := by
  induction entries generalizing opened log with
  | nil => simp [enumerationActions, enumerationLog]
  | cons entry entries ih =>
      obtain ⟨name, e⟩ := entry
      have hlog : Visit.log r (.entity .enumeration name) = [.debug s!"emitting enum {name}"] := rfl
      rw [enumerationActions_cons, List.map_cons]
      by_cases h : Validation.ofMemberValues name e = []
      · rw [if_pos h, List.find?_cons_of_neg (by simp [h])]
        simp only [List.cons_append, ofActions, ih, Block.ofLines, List.append_nil,
          Progress.addTo_addTo, hlog, enumerationLog, if_pos h, List.append_assoc,
          List.nil_append, List.flatMap_cons]
      · rw [if_neg h, List.find?_cons_of_pos (by simp [h])]
        simp [ofActions, hlog, enumerationLog, h]

/-- The violations of the first enumeration whose values cannot be written, if there is one. -/
def Spec.firstUnfit (s : Spec) : Option (List Violation) :=
  (s.enumerations.entries.map fun entry => Validation.ofMemberValues entry.1 entry.2).find? (· ≠ [])

theorem Spec.firstUnfit_eq_none_iff {s : Spec} : s.firstUnfit = none ↔ s.ValuesFit := by
  simp only [firstUnfit, List.find?_eq_none, List.forall_mem_map, decide_eq_true_eq, ne_eq,
    not_not, Validation.ofMemberValues_eq_nil_iff, ValuesFit, OrderedMap.forall_mem_values]

theorem TypeScript.course_eq (s : Spec) (bridgeModule : String) :
    target.course s bridgeModule =
      match s.firstUnfit with
      | none => { stages := [
          ⟨enumerationLog s.enumerations.entries, [], "enums.ts",
            ["// " ++ generatedBanner, "// Enums"] ++ s.enumerationBlocks enumerationBlock,
            postProcess⟩,
          ⟨s.typeVisits.flatMap (Visit.log (resolver s)), (declarations s).issues, "native.d.ts",
            (declarations s).lines, postProcess⟩,
          ⟨[], [], "native.js", bridge s bridgeModule, postProcess⟩] }
      | some violations =>
        { log := enumerationLog s.enumerations.entries, refusal := some violations } := by
  rw [Target.course, show target.actions = actions from rfl, actions, List.append_assoc,
    Spec.firstUnfit]
  simp only [List.cons_append, List.nil_append, Course.ofActions,
    Course.ofActions_enumerationActions]
  split
  · simp [Progress.addTo, OutputUnit.addLines, Block.ofLines, Spec.enumerationBlocks]
  · rfl

theorem Python.course_eq (s : Spec) (bridgeModule : String) :
    target.course s bridgeModule =
      match s.firstUnfit with
      | none => { stages := [
          ⟨enumerationLog s.enumerations.entries ++ s.typeVisits.flatMap (Visit.log (resolver s)),
            (declarations s).issues, "native.pyi",
            imports ++ ["# Enums"] ++ s.enumerationBlocks enumerationBlock ++
              (declarations s).lines,
            postProcess⟩,
          ⟨[], [], "native.py", bridge s bridgeModule, postProcess⟩] }
      | some violations =>
        { log := enumerationLog s.enumerations.entries, refusal := some violations } := by
  rw [Target.course, show target.actions = actions from rfl, actions, List.append_assoc,
    Spec.firstUnfit]
  simp only [List.cons_append, List.nil_append, Course.ofActions,
    Course.ofActions_enumerationActions]
  split
  · simp [Progress.addTo, OutputUnit.addLines, Block.ofLines, Spec.enumerationBlocks]
  · rfl

/-! ## The stages of the targets -/

theorem TypeScript.stages_eq {s : Spec} (h : s.ValuesFit) (bridgeModule : String) :
    target.stages s bridgeModule = .ok [
      ⟨enumerationLog s.enumerations.entries, [], "enums.ts",
        ["// " ++ generatedBanner, "// Enums"] ++ s.enumerationBlocks enumerationBlock,
        postProcess⟩,
      ⟨s.typeVisits.flatMap (Visit.log (resolver s)), (declarations s).issues, "native.d.ts",
        (declarations s).lines, postProcess⟩,
      ⟨[], [], "native.js", bridge s bridgeModule, postProcess⟩] := by
  rw [Target.stages, course_eq, Spec.firstUnfit_eq_none_iff.2 h]

theorem Python.stages_eq {s : Spec} (h : s.ValuesFit) (bridgeModule : String) :
    target.stages s bridgeModule = .ok [
      ⟨enumerationLog s.enumerations.entries ++ s.typeVisits.flatMap (Visit.log (resolver s)),
        (declarations s).issues, "native.pyi",
        imports ++ ["# Enums"] ++ s.enumerationBlocks enumerationBlock ++ (declarations s).lines,
        postProcess⟩,
      ⟨[], [], "native.py", bridge s bridgeModule, postProcess⟩] := by
  rw [Target.stages, course_eq, Spec.firstUnfit_eq_none_iff.2 h]

namespace Target

variable {id : TargetId} {s : Spec} {bridgeModule : String}

theorem id_ofId (id : TargetId) : (ofId id).id = id := by
  cases id <;> rfl

/-- A target refuses a spec before its first stage, or does not refuse it at all. -/
theorem course_cases (id : TargetId) (s : Spec) (bridgeModule : String) :
    (s.firstUnfit = none ∧ ∃ stages, (ofId id).course s bridgeModule = { stages }) ∨
      ∃ violations, s.firstUnfit = some violations ∧ (ofId id).course s bridgeModule =
        { log := enumerationLog s.enumerations.entries, refusal := some violations } := by
  cases hunfit : s.firstUnfit with
  | none =>
      refine .inl ⟨rfl, ?_⟩
      cases id with
      | typescript => exact ⟨_, by rw [ofId, TypeScript.course_eq, hunfit]⟩
      | python => exact ⟨_, by rw [ofId, Python.course_eq, hunfit]⟩
  | some violations =>
      refine .inr ⟨violations, rfl, ?_⟩
      cases id with
      | typescript => rw [ofId, TypeScript.course_eq, hunfit]
      | python => rw [ofId, Python.course_eq, hunfit]

end Target

namespace Emission

variable {id : TargetId} {s : Spec} {bridgeModule : Option String} {σ : Type}

/-- A spec that is not refused is written stage by stage. -/
theorem ofSpec_of_stages {stages : List Stage}
    (h : (Target.ofId id).stages s (bridgeModule.getD (Target.ofId id).bridgeModule) = .ok stages)
    (sink : Sink σ) (state : σ) :
    ofSpec (.ofId id) s bridgeModule sink state = ofStages sink stages state := by
  rw [ofSpec_eq_ofCourse]
  rw [Target.stages] at h
  obtain ⟨-, _, hcourse⟩ | ⟨violations, -, hcourse⟩ :=
    Target.course_cases id s (bridgeModule.getD (Target.ofId id).bridgeModule)
  · rw [hcourse] at h ⊢
    cases h
    exact ofCourse_stages _ _ _ _
  · rw [hcourse] at h
    cases h

/-- A spec that is refused is refused before a unit is closed. -/
theorem ofSpec_of_refusal {violations : List Violation}
    (h : (Target.ofId id).stages s (bridgeModule.getD (Target.ofId id).bridgeModule) =
      .error violations) (sink : Sink σ) (state : σ) :
    ofSpec (.ofId id) s bridgeModule sink state =
      ({ log := enumerationLog s.enumerations.entries
         abort := some (.invalidSpec id violations) }, state) := by
  rw [ofSpec_eq_ofCourse]
  rw [Target.stages] at h
  obtain ⟨-, _, hcourse⟩ | ⟨_, -, hcourse⟩ :=
    Target.course_cases id s (bridgeModule.getD (Target.ofId id).bridgeModule)
  · rw [hcourse] at h
    cases h
  · rw [hcourse] at h ⊢
    cases h
    simp [ofCourse, ofStages, Target.id_ofId]

end Emission

/-! ## Reports of targets -/

namespace TargetReport

variable {σ : Type} {s : Spec} {bridgeModule : Option String}

/-- Validation gives a target up before anything is known of it, and nothing is handed over. -/
theorem generate_of_invalid {t : Target} (h : s.validate t.identifiers ≠ [])
    (bridgeModule : Option String) (sink : Sink σ) (state : σ) :
    (generate t s bridgeModule sink state).report =
        aborted { target := t.id } (.invalidSpec t.id (s.validate t.identifiers)) ∧
      (generate t s bridgeModule sink state).state = state := by
  simp [generate, h]

/-- What is reported of a target whose units were handed over. -/
def ofEmission (id : TargetId) (s : Spec) (emission : Emission) : TargetReport :=
  let report : TargetReport := {
    target := id
    units := emission.units
    coverage := s.coverage (Target.ofId id).mapping
    issues := emission.issues }
  match emission.abort with
  | none => report
  | some a => report.aborted a

theorem generate_of_stages {id : TargetId} {stages : List Stage} (sink : Sink σ) (state : σ)
    (hvalid : s.validate (Target.ofId id).identifiers = [])
    (hstages : (Target.ofId id).stages s (bridgeModule.getD (Target.ofId id).bridgeModule) =
      .ok stages) :
    (generate (.ofId id) s bridgeModule sink state).report =
        ofEmission id s (Emission.ofStages sink stages state).1 ∧
      (generate (.ofId id) s bridgeModule sink state).state =
        (Emission.ofStages sink stages state).2 := by
  cases habort : (Emission.ofStages sink stages state).1.abort <;>
    simp [generate, hvalid, Emission.ofSpec_of_stages hstages, ofEmission, habort, Target.id_ofId]

theorem generate_of_refusal {id : TargetId} {violations : List Violation} (sink : Sink σ)
    (state : σ) (hvalid : s.validate (Target.ofId id).identifiers = [])
    (hstages : (Target.ofId id).stages s (bridgeModule.getD (Target.ofId id).bridgeModule) =
      .error violations) :
    (generate (.ofId id) s bridgeModule sink state).report =
        aborted { target := id, coverage := s.coverage (Target.ofId id).mapping }
          (.invalidSpec id violations) ∧
      (generate (.ofId id) s bridgeModule sink state).state = state := by
  simp [generate, hvalid, Emission.ofSpec_of_refusal hstages, Target.id_ofId]

end TargetReport

end Bindery
