import Bindery.Coverage
import Bindery.Diagnostic
import Bindery.Output.Unit
import Bindery.Resolution.Issue
import Bindery.SortedMap
import Bindery.Target.Basic

/-!
Reports: what a run wrote for each target, what it could not express, and why it stopped.
-/

namespace Bindery

structure TargetReport where
  target : TargetId
  /-- The units that were closed, in that order. -/
  units : List UnitSummary := []
  coverage : List CoverageWarning := []
  /-- One for each placeholder that was made, whether the output shows it or not. -/
  issues : List Issue := []
  /-- Why the target was given up, if it was. -/
  error : Option String := none
  violations : List String := []
  /-- The error at length; it is not kept in documents. -/
  diagnostic : Option Diagnostic := none
  deriving Repr

structure Report where
  targets : List TargetReport := []
  deriving Repr, Inhabited

namespace TargetReport

def isAborted (t : TargetReport) : Bool := t.error.isSome

/-- How many issues each identifier has, in ascending order of the identifiers. -/
def placeholderSummary (t : TargetReport) : SortedMap Nat :=
  t.issues.foldl (fun m i => m.insert i.identifier ((m.get? i.identifier).getD 0 + 1)) ∅

/-- The steps that failed, each with the unit it ran on. -/
def failedSteps (t : TargetReport) : List (String × StepOutcome) :=
  t.units.flatMap fun u => (u.postProcess.filter StepOutcome.isFailure).map (u.name, ·)

def stepDiagnostic (target : TargetId) (unit : String) : StepOutcome → Option Diagnostic
  | .failed step message => some {
      severity := .warning
      message := target.name ++ ": " ++ step ++ " failed on " ++ unit
      context := [message]
      suggestions := ["Run the step by hand, or pass --no-post-process"] }
  | _ => none

/-- One warning for each step that failed. -/
def stepDiagnostics (t : TargetReport) : List Diagnostic :=
  t.failedSteps.filterMap fun (unit, outcome) => stepDiagnostic t.target unit outcome

def unitLine (u : UnitSummary) : String :=
  match u.path with
  | some path => s!"  wrote {path}\n"
  | none => s!"  {u.name} ({u.lines} lines)\n"

def summaryLines (t : TargetReport) : List String :=
  if t.issues.isEmpty then [] else
    s!"  placeholders ({t.issues.length}):\n" ::
      t.placeholderSummary.entries.map fun (identifier, n) => s!"    {identifier} x{n}\n"

/-- The lines of a target. One that was given up has a single line. -/
def textLines (t : TargetReport) : List String :=
  match t.error with
  | some error => [s!"{t.target.name}: aborted: {error}\n"]
  | none =>
    [s!"{t.target.name}: {t.units.length} unit(s)\n"] ++
      t.units.map unitLine ++
      (t.coverage.map fun w => s!"  warning: {w.text}\n") ++
      t.summaryLines ++
      (if t.failedSteps.isEmpty then []
        else [s!"  post-processing failed: {t.failedSteps.length} step(s)\n"])

def toJson (t : TargetReport) : Json :=
  .object ([
    ("target", .string t.target.name),
    ("units", .list (t.units.map UnitSummary.toJson)),
    ("coverage", .list (t.coverage.map CoverageWarning.toJson)),
    ("issues", .list (t.issues.map Issue.toJson))] ++
    Json.optionalMember "error" .string t.error ++
    if t.violations.isEmpty then [] else [("violations", .strings t.violations)])

end TargetReport

namespace Report

def hasErrors (r : Report) : Bool := r.targets.any TargetReport.isAborted

def placeholderCount (r : Report) : Nat :=
  (r.targets.flatMap TargetReport.issues).length

/-- The first entry of a target. -/
def target? (r : Report) (id : TargetId) : Option TargetReport :=
  r.targets.find? (·.target = id)

/-- The report for people. -/
def text (r : Report) : String :=
  String.join (r.targets.flatMap TargetReport.textLines)

def toJson (r : Report) : Json :=
  .object [("targets", .list (r.targets.map TargetReport.toJson))]

end Report

end Bindery
