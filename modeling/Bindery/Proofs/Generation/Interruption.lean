import Bindery.Proofs.Files.Standing
import Bindery.Proofs.Generation.Handover
import Bindery.Proofs.Generation.Units

/-!
# Sinks that refuse a unit

`generate_interrupted`: what was taken before the first refusal is a prefix of the units of the
target, and the report says so. In a directory all of it can be read.
-/

namespace Bindery

open Bindery.Path FileSystem

/-- The units of a target in the order in which it closes them. -/
def TargetId.units (id : TargetId) (s : Spec) (bridgeModule : Option String) : List OutputUnit :=
  let enumerations := id.unit id.enumerationUnit
    (["// " ++ generatedBanner, "// Enums"] ++ s.enumerationBlocks id.enumerationBlock)
  let declarations := id.unit id.declarationUnit ((id.statements s).flatMap id.write)
  let bridge := id.unit id.bridgeUnit
    (id.bridge s (bridgeModule.getD (Target.ofId id).bridgeModule))
  match id with
  | .typescript => [enumerations, declarations, bridge]
  | .python => [declarations, bridge]

/-- The issues that are met on the way to a unit. -/
def TargetId.issues (id : TargetId) (s : Spec) (u : OutputUnit) : List Issue :=
  if u.name = id.declarationUnit then s.misses (Target.ofId id).mapping.vocabulary else []

theorem Target.exists_stages (id : TargetId) {s : Spec} (h : s.ValuesFit)
    (bridgeModule : Option String) : ∃ stages,
      (ofId id).stages s (bridgeModule.getD (ofId id).bridgeModule) = .ok stages ∧
      stages.map Stage.unit = id.units s bridgeModule ∧
      ∀ stage ∈ stages, stage.issues = id.issues s stage.unit := by
  cases id with
  | typescript =>
      refine ⟨_, TypeScript.stages_eq h _, ?_, ?_⟩
      · rw [TypeScript.lines_declarations]
        rfl
      · simp only [List.forall_mem_cons, List.not_mem_nil, false_implies, implies_true, and_true]
        exact ⟨rfl, TypeScript.issues_declarations s, rfl⟩
  | python =>
      refine ⟨_, Python.stages_eq h _, ?_, ?_⟩
      · rw [← Python.lines_statements]
        rfl
      · simp only [List.forall_mem_cons, List.not_mem_nil, false_implies, implies_true, and_true]
        exact ⟨Python.issues_declarations s, rfl⟩

theorem TargetId.names_units (id : TargetId) (s : Spec) (bridgeModule : Option String) :
    (id.units s bridgeModule).map (·.name) = (Target.ofId id).unitNames := by
  cases id <;> rfl

namespace Emission

variable {units : List OutputUnit} {attempts : List Attempt} {summaries : List UnitSummary}
  {abort : Option Abort}

/-- All that was handed over before a refusal was taken, and it is a prefix of the units. -/
theorem HandsOver.exists_accepted (h : HandsOver units attempts summaries abort) :
    ∃ accepted : List (OutputUnit × UnitSummary), summaries = accepted.map Prod.snd ∧
      ((units = accepted.map Prod.fst ∧ abort = none ∧
          attempts = accepted.map fun taken => (taken.1, .ok taken.2)) ∨
        ∃ refused later fault, units = accepted.map Prod.fst ++ refused :: later ∧
          abort = some (.output refused.name fault) ∧
          attempts = accepted.map (fun taken => (taken.1, .ok taken.2)) ++
            [(refused, .error fault)]) := by
  induction h with
  | done => exact ⟨[], rfl, .inl ⟨rfl, rfl, rfl⟩⟩
  | refused u later fault => exact ⟨[], rfl, .inr ⟨u, later, fault, rfl, rfl, rfl⟩⟩
  | taken u summary _ ih =>
      obtain ⟨accepted, rfl, ⟨rfl, habort, rfl⟩ | ⟨refused, later, fault, rfl, habort, rfl⟩⟩ := ih
      · exact ⟨(u, summary) :: accepted, rfl, .inl ⟨rfl, habort, rfl⟩⟩
      · exact ⟨(u, summary) :: accepted, rfl, .inr ⟨refused, later, fault, rfl, habort, rfl⟩⟩

theorem HandsOver.abort_ne_none_iff (h : HandsOver units attempts summaries abort) :
    abort ≠ none ↔ ∃ u fault, (u, .error fault) ∈ attempts := by
  induction h with
  | done => simp
  | refused u later fault => simp
  | taken u summary _ ih => simp [ih]

/-! ## Units in a directory -/

/-- What the directory took can be read. -/
def Stands (root : String) (attempts : List Attempt) (fs : FileSystem) : Prop :=
  ∀ u summary, (u, .ok summary) ∈ attempts → fs.readText (join root u.name) = .ok u.text

section

variable {config : Config} {root : String}

theorem Stands.close {u : OutputUnit} {m : Machine} (h : Stands root attempts m.files)
    (hname : IsName u.name) (hnames : ∀ attempt ∈ attempts, IsName attempt.1.name)
    (hfresh : u.name ∉ attempts.map (·.1.name)) :
    Stands root (attempts ++ [(u, ((Sink.directory config false root).close u m).result)])
      ((Sink.directory config false root).close u m).state.files := by
  intro v summary hv
  have hfiles : ((Sink.directory config false root).close u m).state.files =
      (m.files.writeIn root u.name u.text).2 := by
    rw [Sink.close_directory]
    rcases m.files.writeIn root u.name u.text with ⟨_ | fault, files⟩ <;> rfl
  rw [hfiles]
  rcases List.mem_append.1 hv with hold | hnew
  · have hne : v.name ≠ u.name := fun heq => hfresh (heq ▸ List.mem_map_of_mem hold)
    exact readText_writeIn_of_ne (hnames _ hold) hname hne (h v summary hold)
  · obtain ⟨rfl, hresult⟩ := Prod.mk.inj (List.mem_singleton.1 hnew)
    have hwrite : (m.files.writeIn root v.name v.text).1 = none := by
      rw [Sink.close_directory] at hresult
      rcases hrun : m.files.writeIn root v.name v.text with ⟨_ | fault, files⟩
      · rfl
      · rw [hrun] at hresult
        cases hresult
    exact readText_writeIn hname (Prod.ext hwrite rfl)

theorem stands_ofStages {stages : List Stage} {m : Machine} (h : Stands root attempts m.files)
    (hnames : ∀ name ∈ attempts.map (·.1.name) ++ stages.map (·.unit.name), IsName name)
    (hnodup : (attempts.map (·.1.name) ++ stages.map (·.unit.name)).Nodup) :
    Stands root (ofStages (Sink.directory config false root).recording stages (attempts, m)).2.1
      (ofStages (Sink.directory config false root).recording stages (attempts, m)).2.2.files := by
  induction stages generalizing attempts m with
  | nil => exact h
  | cons stage stages ih =>
      rw [List.map_cons, List.append_cons] at hnames hnodup
      have hfresh : stage.unit.name ∉ attempts.map (·.1.name) := by
        have hfront := (List.nodup_append.1 hnodup).1
        exact fun hmem => (List.nodup_append.1 hfront).2.2 _ hmem _ List.mem_cons_self rfl
      have hold : ∀ attempt ∈ attempts, IsName attempt.1.name := fun attempt hattempt =>
        hnames _ (List.mem_append_left _ (List.mem_append_left _ (List.mem_map_of_mem hattempt)))
      have hname : IsName stage.unit.name := hnames _ (by simp)
      have hclose := @Stands.close attempts config root stage.unit m h hname hold hfresh
      simp only [ofStages, Sink.close_recording]
      cases hresult : ((Sink.directory config false root).close stage.unit m).result with
      | error fault =>
          rw [hresult] at hclose
          exact hclose
      | ok summary =>
          rw [hresult] at hclose
          refine ih hclose ?_ ?_
          · rwa [List.map_append]
          · rwa [List.map_append]

end

end Emission

namespace TargetReport

open Emission

variable {id : TargetId} {s : Spec} {bridgeModule : Option String}

/-- A spec without violations is written as far as the sink takes it. -/
theorem generate_eq_ofStages (h : s.validate (Target.ofId id).identifiers = []) : ∃ stages,
    stages.map Stage.unit = id.units s bridgeModule ∧
    (∀ stage ∈ stages, stage.issues = id.issues s stage.unit) ∧
    ∀ {σ : Type} (sink : Sink σ) (state : σ),
      let run := generate (.ofId id) s bridgeModule sink state
      let emission := ofStages sink stages state
      run.report.units = emission.1.units ∧ run.report.issues = emission.1.issues ∧
        run.report.error = emission.1.abort.map Abort.message ∧ run.state = emission.2 := by
  have hfits := ((s.validate_eq_nil_iff _).1 h).valuesFit
  obtain ⟨stages, hstages, hunits, hissues⟩ := Target.exists_stages id hfits bridgeModule
  refine ⟨stages, hunits, hissues, fun sink state => ?_⟩
  obtain ⟨hreport, hstate⟩ := generate_of_stages sink state h hstages
  simp only [hreport, hstate, ofEmission]
  cases (ofStages sink stages state).1.abort with
  | none => simp
  | some abort => simp [aborted]

/-- Units are closed in a fixed order until the first is refused. It is the one that the report
names, and what was taken before it is all in the report, or in the files of a directory. -/
theorem generate_interrupted (id : TargetId) (s : Spec) (bridgeModule : Option String)
    (h : s.validate (Target.ofId id).identifiers = []) :
    ((TargetId.typescript.units s bridgeModule).map (·.name) =
        ["enums.ts", "native.d.ts", "native.js"] ∧
      (TargetId.python.units s bridgeModule).map (·.name) = ["native.pyi", "native.py"]) ∧
    (∀ {σ : Type} (sink : Sink σ) (state : σ),
      let plain := generate (.ofId id) s bridgeModule sink state
      let run := generate (.ofId id) s bridgeModule sink.recording ([], state)
      (run.report = plain.report ∧ run.state.2 = plain.state) ∧
      (∃ accepted : List (OutputUnit × UnitSummary),
        plain.report.units = accepted.map Prod.snd ∧
        ((id.units s bridgeModule = accepted.map Prod.fst ∧ plain.report.error = none ∧
            run.state.1 = accepted.map fun taken => (taken.1, .ok taken.2)) ∨
          ∃ refused later fault,
            id.units s bridgeModule = accepted.map Prod.fst ++ refused :: later ∧
            plain.report.error = some s!"failed to write output unit `{refused.name}`" ∧
            run.state.1 = accepted.map (fun taken => (taken.1, .ok taken.2)) ++
              [(refused, .error fault)])) ∧
      (plain.report.error ≠ none ↔ ∃ u fault, (u, .error fault) ∈ run.state.1) ∧
      plain.report.issues = run.state.1.flatMap fun attempt => id.issues s attempt.1) ∧
    ∀ (config : Config) (root : String) (m : Machine),
      let run := generate (.ofId id) s bridgeModule (Sink.directory config false root).recording
        ([], m)
      ∀ u summary, (u, .ok summary) ∈ run.state.1 →
        run.state.2.files.readText (join root u.name) = .ok u.text := by
  obtain ⟨stages, hunits, hissues, hrun⟩ := @generate_eq_ofStages id s bridgeModule h
  refine ⟨⟨rfl, rfl⟩, fun {σ} sink state => ?_, fun config root m => ?_⟩
  · intro plain run
    obtain ⟨hreport, -, hstate⟩ := generate_recording sink id s bridgeModule state
    obtain ⟨hsummaries, hmet, herror, -⟩ := hrun sink state
    obtain ⟨attempts, handed, hrecord, hhands, hfront, hfirst, hflat⟩ :=
      ofStages_recording sink stages [] state
    have hattempts : run.state.1 = attempts := by
      rw [(hrun sink.recording ([], state)).2.2.2, hrecord]
      rfl
    have habort : plain.report.error ≠ none ↔ (ofStages sink stages state).1.abort ≠ none := by
      rw [herror, ne_eq, Option.map_eq_none_iff]
    rw [hunits] at hhands
    refine ⟨⟨hreport, hstate⟩, ?_, ?_, ?_⟩
    · rw [hattempts, herror, hsummaries]
      obtain ⟨accepted, hsum, ⟨hall, hnone, hok⟩ | ⟨refused, later, fault, hall, hsome, hok⟩⟩ :=
        hhands.exists_accepted
      · exact ⟨accepted, hsum, .inl ⟨hall, by rw [hnone]; rfl, hok⟩⟩
      · exact ⟨accepted, hsum, .inr ⟨refused, later, fault, hall, by rw [hsome]; rfl, hok⟩⟩
    · rw [habort, hattempts, hhands.abort_ne_none_iff]
    · rw [hmet, hflat, hattempts]
      have hmap : attempts.flatMap (fun attempt => id.issues s attempt.1) =
          handed.flatMap fun stage => id.issues s stage.unit := by
        rw [← List.flatMap_map, hfirst, List.flatMap_map]
      rw [hmap]
      exact List.flatMap_congr fun stage hstage => hissues stage (hfront.subset hstage)
  · intro run
    have hnames : stages.map (·.unit.name) = (Target.ofId id).unitNames := by
      rw [← TargetId.names_units id s bridgeModule, ← hunits, List.map_map]
      rfl
    have hstate := (hrun (Sink.directory config false root).recording ([], m)).2.2.2
    have hnone : Stands root [] m.files := nofun
    rw [hstate]
    refine stands_ofStages hnone ?_ ?_
    · rw [List.map_nil, List.nil_append, hnames]
      exact fun name => Target.isName_of_mem_unitNames id
    · rw [List.map_nil, List.nil_append, hnames]
      exact Target.nodup_unitNames id

/-- Refuses the units of one name and keeps all others. -/
def refusing (name : String) : Sink Shelf where
  close u shelf :=
    if u.name = name then
      { result := .error ⟨.writeFile, name, .isADirectory⟩, state := shelf }
    else Sink.memory.close u shelf

/-- Two units are handed over, and the second of them is refused. -/
def interrupted : Run TargetReport (List Attempt × Shelf) :=
  generate (.ofId .typescript) (modesSpec (some (.integer 5))) none
    (refusing "native.d.ts").recording ([], ∅)

theorem generate_interrupted_modesSpec :
    (modesSpec (some (.integer 5))).validate (Target.ofId .typescript).identifiers = [] ∧
      interrupted.state.1.map (fun attempt => (attempt.1.name, attempt.2.isOk)) =
        [("enums.ts", true), ("native.d.ts", false)] ∧
      interrupted.report.error = some "failed to write output unit `native.d.ts`" := by
  have hvalid : (modesSpec (some (.integer 5))).validate (Target.ofId .typescript).identifiers =
      [] := by
    decide +kernel
  have hrecord : interrupted.state.1.map (fun attempt => (attempt.1.name, attempt.2.isOk)) =
      [("enums.ts", true), ("native.d.ts", false)] := by
    decide +kernel
  refine ⟨hvalid, hrecord, ?_⟩
  obtain ⟨⟨hreport, -⟩, ⟨accepted, -, hcourse⟩, herror, -⟩ :=
    (generate_interrupted .typescript _ none hvalid).2.1 (refusing "native.d.ts") ∅
  rw [interrupted, hreport]
  have hstate : interrupted.state.1 = (generate (.ofId .typescript) (modesSpec (some (.integer 5)))
    none (refusing "native.d.ts").recording ([], ∅)).state.1 := rfl
  rw [← hstate] at hcourse
  rcases hcourse with ⟨-, -, hall⟩ | ⟨refused, later, fault, -, herror, hall⟩
  · have hmem : ("native.d.ts", false) ∈
        interrupted.state.1.map fun attempt => (attempt.1.name, attempt.2.isOk) := by
      simp [hrecord]
    rw [hall, List.map_map] at hmem
    obtain ⟨taken, -, htaken⟩ := List.mem_map.1 hmem
    cases (Prod.mk.inj htaken).2
  · rw [hall] at hrecord
    have hlast := congrArg List.getLast? hrecord
    obtain ⟨hname, -⟩ := Prod.mk.inj (Option.some.inj (by simpa using hlast))
    rw [herror, hname]
    rfl

end TargetReport

end Bindery
