import Bindery.Document.Tagged
import Bindery.Report.Basic
import Bindery.Target.Reading

/-!
Reading reports from documents.
-/

namespace Bindery

namespace IssueKind

def read (r : Reading) (node : Node) : Except Fault IssueKind := do
  let i ← r.word (all.map tag) node
  pure (all[i]?.getD .unmappablePrimitive)

end IssueKind

def Issue.schema : Schema Issue where
  title := "struct ResolutionIssue"
  fields := [
    .must "kind" IssueKind.read fun x kind => { x with kind },
    .must "identifier" Reading.string fun x identifier => { x with identifier },
    .must "location" Reading.string fun x location => { x with location },
    .may "detail" (Reading.option Reading.string) fun x detail => { x with detail }]

namespace CoverageWarning

def kinds : List String := ["primitive", "template"]

def readKind (kind : Nat) (r : Reading) (node : Node) : Except Fault CoverageWarning :=
  (if kind = 0 then primitive else template) <$> r.string node

def title : String := "adjacently tagged enum CoverageWarning"

def read (r : Reading) : Node → Except Fault CoverageWarning
  | .table entries => r.enter.paired "kind" "name" kinds readKind entries
  | .list [] => throw (.invalidLength 0 title)
  | .list [node] => do
    let _ ← r.enter.variant kinds node
    throw (.invalidLength 1 title)
  | .list (node :: name :: rest) => do
    let i ← r.enter.variant kinds node
    let warning ← readKind i r.enter name
    if rest.isEmpty then pure warning else throw .malformed
  | node => throw (r.mismatch node title)

end CoverageWarning

namespace StepOutcome

def passedSchema : Schema String where
  title := "struct variant StepOutcome::Passed"
  fields := [.must "step" Reading.string fun _ step => step]

/-- The schema of an outcome that says more than the step. -/
def explainedSchema (title member : String) : Schema (String × String) where
  title
  fields := [
    .must "step" Reading.string fun x step => (step, x.2),
    .must member Reading.string fun x text => (x.1, text)]

def readKind (kind : Nat) (r : Reading) (node : Node) : Except Fault StepOutcome :=
  match kind with
  | 0 => passed <$> passedSchema.read "" r node
  | 1 => (fun (step, message) => failed step message) <$>
      (explainedSchema "struct variant StepOutcome::Failed" "message").read ("", "") r node
  | _ => (fun (step, reason) => skipped step reason) <$>
      (explainedSchema "struct variant StepOutcome::Skipped" "reason").read ("", "") r node

def read : Reading → Node → Except Fault StepOutcome :=
  Reading.tagged "internally tagged enum StepOutcome" "status" ["passed", "failed", "skipped"]
    readKind

end StepOutcome

def UnitSummary.schema : Schema UnitSummary where
  title := "struct UnitSummary"
  fields := [
    .must "name" Reading.string fun x name => { x with name },
    .may "path" (Reading.option Reading.path) fun x path => { x with path },
    .must "lines" (Reading.natural "usize") fun x lines => { x with lines },
    .may "post_process" (Reading.list StepOutcome.read) fun x postProcess => { x with postProcess }]

def TargetReport.schema : Schema TargetReport where
  title := "struct TargetReport"
  fields := [
    .must "target" TargetId.read fun x target => { x with target },
    .must "units" (Reading.list (UnitSummary.schema.read default)) fun x units => { x with units },
    .must "coverage" (Reading.list CoverageWarning.read) fun x coverage => { x with coverage },
    .must "issues" (Reading.list (Issue.schema.read ⟨.unmappablePrimitive, "", "", none⟩))
      fun x issues => { x with issues },
    .may "error" (Reading.option Reading.string) fun x error => { x with error },
    .may "violations" (Reading.list Reading.string) fun x violations => { x with violations }]

def Report.schema : Schema Report where
  title := "struct GenerationReport"
  fields := [
    .must "targets" (Reading.list (TargetReport.schema.read { target := .typescript }))
      fun x targets => { x with targets }]

def Report.read (r : Reading) (node : Node) : Except Fault Report :=
  Report.schema.read {} r node

end Bindery
