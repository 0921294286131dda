import Bindery.Config
import Bindery.Log
import Bindery.Machine.Basic
import Bindery.OrderedMap
import Bindery.Output.Unit

/-!
Sinks: where finished units go. A sink takes a unit in one step, so nobody sees half of one. Its
state is passed along.
-/

namespace Bindery

/-- What comes of handing a unit over. -/
structure Closing (σ : Type) where
  /-- What became of the unit, or why it was refused. -/
  result : Except FileFault UnitSummary
  log : List LogEntry := []
  state : σ

structure Sink (σ : Type) where
  close : OutputUnit → σ → Closing σ

/-- The units that were kept, in the order in which their names first came. -/
abbrev Shelf := OrderedMap OutputUnit

namespace Sink

def summary (u : OutputUnit) : UnitSummary :=
  { name := u.name, lines := u.lines.length }

/-- Keeps every unit. A later one of the same name takes the place of the earlier. -/
def memory : Sink Shelf where
  close u shelf := { result := .ok (summary u), state := shelf.insert u.name u }

/-- Runs one step on a unit that was written to a directory. -/
def runStep (config : Config) (root name step : String) (m : Machine) :
    StepOutcome × List LogEntry × Machine :=
  match config.command step with
  | none => (.skipped step "no command configured", [], m)
  | some command =>
    match m.find? command.program with
    | none => (.skipped step ("`" ++ command.program ++ "` not found in PATH"), [], m)
    | some program =>
      let line : CommandLine := ⟨program, command.arguments ++ [name], some root⟩
      let start := LogEntry.debug ("running " ++ line.text)
      match m.runChecked line with
      | (none, m) => (.passed step, [start], m)
      | (some fault, m) =>
        let note := step ++ " failed on " ++ Path.join root name ++ ": " ++ fault.message
        (.failed step fault.message, [start, .warning note], m)

/-- Runs steps one after the other, whatever comes of them. -/
def runSteps (config : Config) (root name : String) :
    List String → Machine → List StepOutcome × List LogEntry × Machine
  | [], m => ([], [], m)
  | step :: steps, m =>
    let (outcome, log, m) := runStep config root name step m
    let (outcomes, rest, m) := runSteps config root name steps m
    (outcome :: outcomes, log ++ rest, m)

/-- Writes every unit into a directory, and then runs its steps if they are wanted. A step that
fails does not undo the writing. -/
def directory (config : Config) (postProcess : Bool) (root : String) : Sink Machine where
  close u m :=
    match m.files.writeIn root u.name u.text with
    | (some fault, files) => { result := .error fault, state := { m with files } }
    | (none, files) =>
      let path := Path.join root u.name
      let steps := if postProcess then u.postProcess else []
      let (outcomes, log, m) := runSteps config root u.name steps { m with files }
      { result := .ok { summary u with path := some path, postProcess := outcomes }
        log := .debug ("wrote " ++ path) :: log
        state := m }

end Sink

end Bindery
