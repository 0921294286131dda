import Bindery.Output.Sink
import Bindery.Report.Basic
import Bindery.Target.Registry

/-!
Generation: from a spec to a report, target by target. What stops one target does not stop the
others.
-/

namespace Bindery

/-- Why a target was given up. -/
inductive Abort where
  | invalidSpec (target : TargetId) (violations : List Violation)
  | output (unit : String) (fault : FileFault)
  | clean (path : String) (fault : FileFault)
  deriving Repr

namespace Abort

def message : Abort → String
  | .invalidSpec target violations =>
    s!"spec violates {violations.length} structural invariant(s) for target `{target.name}`"
  | .output unit _ => s!"failed to write output unit `{unit}`"
  | .clean path _ => s!"failed to clean output directory `{path}`"

def code : Abort → String
  | .invalidSpec .. => "bindspec::generate::invalid_spec"
  | .output .. => "bindspec::generate::output"
  | .clean .. => "bindspec::generate::clean"

def help : Abort → String
  | .invalidSpec .. => "Fix the listed entities in the spec and re-run generation"
  | .output .. => "Check that the output directory is writable"
  | .clean .. => "Remove the path by hand or run without --clean"

def violations : Abort → List Violation
  | .invalidSpec _ violations => violations
  | _ => []

/-- The helps of violations, each once, where it first comes. -/
def suggestions (violations : List Violation) : List String :=
  (violations.flatMap fun v => v.help.toList).foldl Diagnostic.suggest []

def diagnostic : Abort → Diagnostic
  | .invalidSpec target violations => {
      severity := .error
      message := s!"cannot generate `{target.name}` bindings from an inconsistent spec"
      context := violations.map Violation.message
      suggestions := suggestions violations ++ [help (.invalidSpec target violations)] }
  | .output unit fault => {
      severity := .error
      message := s!"failed to write `{unit}`: " ++ fault.message
      suggestions := [help (.output unit fault)] }
  | .clean path fault => {
      severity := .error
      message := s!"failed to clean `{path}`: " ++ fault.message
      suggestions := [help (.clean path fault)] }

end Abort

/-- What came of closing units: those that were taken, the issues met and what was noted on the
way, and what stopped it. -/
structure Emission where
  units : List UnitSummary := []
  issues : List Issue := []
  log : List LogEntry := []
  abort : Option Abort := none
  deriving Repr

/-- How far a target has come: the units that are open, what came of those that were closed, and the
place that they go to. -/
structure Progress (σ : Type) where
  opened : List OutputUnit := []
  emission : Emission := {}
  state : σ

namespace Progress

variable {σ : Type}

/-- Adds lines to the open unit of that name. -/
def addTo (unit : String) (lines : List String) (opened : List OutputUnit) : List OutputUnit :=
  opened.map fun u => if u.name = unit then u.addLines lines else u

/-- Closes a unit that is open. -/
def close (sink : Sink σ) (u : OutputUnit) (p : Progress σ) : Progress σ :=
  let closing := sink.close u p.state
  let opened := p.opened.filter (·.name ≠ u.name)
  let log := p.emission.log ++ closing.log
  match closing.result with
  | .error fault =>
    { opened
      emission := { p.emission with log, abort := some (.output u.name fault) }
      state := closing.state }
  | .ok summary =>
    { opened
      emission := { p.emission with log, units := p.emission.units ++ [summary] }
      state := closing.state }

/-- Takes one step. A unit that is not open is neither written nor closed. -/
def act (id : TargetId) (sink : Sink σ) (p : Progress σ) : Action → Progress σ
  | .note entries => { p with emission := { p.emission with log := p.emission.log ++ entries } }
  | .start unit postProcess => { p with opened := p.opened ++ [{ name := unit, postProcess }] }
  | .add unit block =>
    { p with
      opened := addTo unit block.lines p.opened
      emission := { p.emission with issues := p.emission.issues ++ block.issues } }
  | .refuse violations =>
    { p with emission := { p.emission with abort := some (.invalidSpec id violations) } }
  | .close unit =>
    match p.opened.find? (·.name = unit) with
    | some u => p.close sink u
    | none => p

/-- Takes steps until an enumeration or a unit is refused. -/
def run (id : TargetId) (sink : Sink σ) : List Action → Progress σ → Progress σ
  | [], p => p
  | action :: actions, p =>
    if p.emission.abort.isSome then p else run id sink actions (p.act id sink action)

end Progress

/-- Writes all units of a target, without validation. -/
def Emission.ofSpec {σ : Type} (t : Target) (s : Spec) (bridgeModule : Option String)
    (sink : Sink σ) (state : σ) : Emission × σ :=
  let actions := t.actions s (bridgeModule.getD t.bridgeModule)
  let p := Progress.run t.id sink actions { state }
  (p.emission, p.state)

/-- What a run leaves behind: its report, its log, and the state of the place that it wrote to. -/
structure Run (ρ σ : Type) where
  report : ρ
  log : List LogEntry := []
  state : σ

namespace TargetReport

/-- Gives a target up. -/
def aborted (r : TargetReport) (a : Abort) : TargetReport :=
  { r with
    error := some a.message
    violations := a.violations.map Violation.message
    diagnostic := some a.diagnostic }

/-- A warning about a target. -/
def warning (id : TargetId) (message : String) : LogEntry :=
  .warning (id.name ++ ": " ++ message)

/-- What is noted once a target is through. -/
def closingLog (r : TargetReport) : List LogEntry :=
  (r.issues.map fun i => warning r.target ("placeholder for " ++ i.text)) ++
    match r.error with
    | some error => [warning r.target error]
    | none => [.info
        s!"{r.target.name}: generated {r.units.length} unit(s), {r.issues.length} placeholder(s)"]

/-- Validates a spec for a target, checks its coverage and writes it. -/
def generate {σ : Type} (t : Target) (s : Spec) (bridgeModule : Option String) (sink : Sink σ)
    (state : σ) : Run TargetReport σ :=
  let violations := s.validate t.identifiers
  if violations.isEmpty then
    let (emission, state) := Emission.ofSpec t s bridgeModule sink state
    let report : TargetReport := {
      target := t.id
      units := emission.units
      coverage := s.coverage t.mapping
      issues := emission.issues }
    let report := match emission.abort with
      | none => report
      | some a => report.aborted a
    { report
      log := (report.coverage.map fun w => warning t.id w.text) ++ emission.log ++
        report.closingLog
      state }
  else {
    report := TargetReport.aborted { target := t.id } (.invalidSpec t.id violations)
    log := [warning t.id s!"spec has {violations.length} structural violation(s)"]
    state }

end TargetReport

structure GenerateOptions where
  /-- None means all. -/
  targets : List TargetId := []
  outputDirectory : String := Config.defaultOutputDirectory
  bridgeModule : Option String := none
  postProcess : Bool := true
  /-- Whether the directory of a target is removed before it is written. -/
  clean : Bool := false
  /-- Whether nothing is written at all. -/
  dryRun : Bool := false
  config : Config := .default

namespace GenerateOptions

/-- Every element once, where it first stands. -/
def distinct : List TargetId → List TargetId
  | [] => []
  | id :: ids => id :: (distinct ids).filter (· ≠ id)

/-- The targets of a run, each once, in the order in which they are first asked for. -/
def requested (o : GenerateOptions) : List TargetId :=
  if o.targets.isEmpty then TargetId.all else distinct o.targets

/-- The directory of a target. -/
def root (o : GenerateOptions) (id : TargetId) : String :=
  Path.join o.outputDirectory id.name

end GenerateOptions

namespace Report

/-- Generates one target on a machine. -/
def generateTarget (s : Spec) (o : GenerateOptions) (id : TargetId) (m : Machine) :
    Run TargetReport Machine :=
  if o.dryRun then
    let run := TargetReport.generate (.ofId id) s o.bridgeModule Sink.memory ∅
    { report := run.report, log := run.log, state := m }
  else
    let root := o.root id
    match (if o.clean then m.files.clear root else .ok m.files) with
    | .error fault => {
        report := TargetReport.aborted { target := id } (.clean root fault)
        log := [TargetReport.warning id fault.message]
        state := m }
    | .ok files =>
      TargetReport.generate (.ofId id) s o.bridgeModule (Sink.directory o.config o.postProcess root)
        { m with files }

/-- Generates targets in their order. Runs at the same time are left out: here each one is over
before the next begins, so nothing is said of file operations that come in between each other. -/
def generateAll (s : Spec) (o : GenerateOptions) :
    List TargetId → Machine → Run (List TargetReport) Machine
  | [], m => { report := [], state := m }
  | id :: ids, m =>
    let first := generateTarget s o id m
    let rest := generateAll s o ids first.state
    { report := first.report :: rest.report, log := first.log ++ rest.log, state := rest.state }

/-- Generates every requested target. -/
def generate (s : Spec) (o : GenerateOptions) (m : Machine) : Run Report Machine :=
  let run := generateAll s o o.requested m
  { report := { targets := run.report }, log := run.log, state := run.state }

end Report

end Bindery
