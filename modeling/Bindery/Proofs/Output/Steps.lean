import Bindery.Output.Sink
import Bindery.Proofs.Files.Path
import Bindery.Proofs.Outcome

/-!
# Steps on written units

`processes_runSteps`: every step of a unit is judged, one after the other, whatever came of those
before it.
-/

namespace Bindery

/-! ## Programs that are called -/

/-- A program was called with these arguments in a directory, and came to an end. It has left the
files as they are on the second machine. Texts that no program can be passed are never handed on. -/
structure Machine.Called (m : Machine) (program : String) (arguments : List String)
    (directory : String) (finish : Finish) (m' : Machine) : Prop where
  noNul : ∀ text ∈ program :: arguments ++ [directory], '\x00' ∉ text.toList
  short : ∀ argument ∈ arguments, argument.utf8ByteSize < Machine.argumentLimit
  called : ∃ location entries behaviour left,
    m.files.locate directory = .ok (location, some (.directory entries)) ∧
    m.programFor { m.files with working := location } program = .ok (.run behaviour) ∧
    behaviour ⟨arguments, location⟩ { m.files with working := location } = (finish, left) ∧
    m' = { m with files := { m.files with root := left.root } }

/-! ## What starts -/

namespace Machine

variable {m m' : Machine} {program directory : String} {arguments : List String} {finish : Finish}
  {fs : FileSystem}

theorem enterDirectory_eq_ok_iff : m.enterDirectory (some directory) = .ok fs ↔
    ∃ location entries, m.files.locate directory = .ok (location, some (.directory entries)) ∧
      { m.files with working := location } = fs := by
  rw [enterDirectory]
  cases hlocate : m.files.locate directory with
  | error fault => simp [bind, Except.bind]
  | ok found =>
      rcases found with ⟨location, _ | file | entries⟩
      · simp [bind, Except.bind]
      · simp [bind, Except.bind]
      · simp [bind, Except.bind, pure, Except.pure]

/-- A command that starts is a program that is called. -/
theorem start_eq_ok_iff : m.start ⟨program, arguments, some directory⟩ = .ok (finish, m') ↔
    m.Called program arguments directory finish m' := by
  have hnul : ¬ (program :: arguments ++ [directory]).any (·.contains '\x00') = true ↔
      ∀ text ∈ program :: arguments ++ [directory], '\x00' ∉ text.toList := by
    rw [Bool.not_eq_true, List.any_eq_false]
    exact forall₂_congr fun text _ => by simp
  have hshort : ¬ arguments.any (argumentLimit ≤ ·.utf8ByteSize) = true ↔
      ∀ argument ∈ arguments, argument.utf8ByteSize < argumentLimit := by
    simp
  simp only [start, guarded_eq_ok_iff, bind_eq_ok_iff, enterDirectory_eq_ok_iff,
    Option.toList_some, hnul, hshort]
  constructor
  · rintro ⟨hpassed, _, ⟨location, entries, hlocate, rfl⟩, found, hfound, hfits, hrun⟩
    cases found with
    | broken => cases hrun
    | run behaviour =>
        cases hrun
        exact ⟨hpassed, hfits, location, entries, behaviour, _, hlocate, hfound, rfl, rfl⟩
  · rintro ⟨hpassed, hfits, location, entries, behaviour, left, hlocate, hfound, hcall, rfl⟩
    refine ⟨hpassed, _, ⟨location, entries, hlocate, rfl⟩, _, hfound, hfits, ?_⟩
    simp only [hcall]
    rfl

/-- A name is looked for in the directories of the search path, one after the other. -/
theorem find?_of_isName {name : String} (hname : Path.IsName name) :
    m.find? name = (m.searchPath.map (Path.join · name)).find? m.isExecutable := by
  have hleads := hname.leading
  simp only [Path.leads, Bool.and_eq_true, decide_eq_true_eq] at hleads
  have hraw : Path.rawParts name = [name] := Path.rawParts_name hname.noSlash
  have hparts : Path.parts name = [name] := by
    rw [Path.parts_eq_filter, hraw, List.filter_singleton, hname.leading]
    rfl
  have hpath : isPath name = false := by
    simp [isPath, hraw, hparts, hleads.2, ← Bool.not_eq_true, Path.isAbsolute_iff, hname.head?_ne]
  simp [find?, hleads.1, hpath]

/-- A program that has a slash in its name is not looked for. -/
theorem programFor_of_mem {name : String} (hslash : '/' ∈ name.toList) :
    m.programFor fs name = m.programAt fs name := by
  have hne : name ≠ "" := by
    rintro rfl
    cases hslash
  simp [programFor, hne, hslash]

/-- What a command that must succeed comes to. -/
theorem runChecked_eq (m : Machine) (c : CommandLine) :
    m.runChecked c = match m.start c with
      | .error fault => (some (.notStarted c.program fault), m)
      | .ok (finish, m') =>
        (if finish.status = some 0 then none else some (.unsuccessful c finish), m') := by
  rw [runChecked, run]
  cases m.start c with
  | error fault => rfl
  | ok ended =>
      obtain ⟨finish, m'⟩ := ended
      change (if finish.isSuccess then none else some (RunFault.unsuccessful c finish), m') = _
      simp only [Finish.isSuccess, decide_eq_true_eq]

/-- A program that is called ends in one way. -/
theorem Called.unique {finish' : Finish} {m'' : Machine}
    (h : m.Called program arguments directory finish m')
    (h' : m.Called program arguments directory finish' m'') : finish = finish' ∧ m' = m'' := by
  rw [← start_eq_ok_iff] at h h'
  rw [h, Except.ok.injEq, Prod.mk.injEq] at h'
  exact h'

end Machine

/-! ## Judging a step -/

namespace Sink

/-- There is no command for the step, neither configured nor built in, or its program is not
found. -/
def Unavailable (config : Config) (step : String) (m : Machine) : Prop :=
  (config.commands.get? step = none ∧ Config.builtinCommand step = none) ∨
    ∃ command, config.command step = some command ∧ m.find? command.program = none

/-- The program of the step ran on a unit: it was called in the root, with the arguments of its
command and the name of the unit behind them. -/
def Runs (config : Config) (root name step : String) (m : Machine) (finish : Finish)
    (m' : Machine) : Prop :=
  ∃ command program, config.command step = some command ∧
    m.find? command.program = some program ∧
    m.Called program (command.arguments ++ [name]) root finish m'

/-- The outcome is that of the step: it was skipped if its program was not there, it has passed if
the program ran and ended with status 0, and it has failed otherwise. -/
structure Judges (config : Config) (root name step : String) (m : Machine) (outcome : StepOutcome)
    (m' : Machine) : Prop where
  skipped_iff : (∃ reason, outcome = .skipped step reason) ↔ Unavailable config step m
  passed_iff : outcome = .passed step ↔
    ∃ finish m', Runs config root name step m finish m' ∧ finish.status = some 0
  failed_iff : (∃ message, outcome = .failed step message) ↔ ¬ Unavailable config step m ∧
    ¬ ∃ finish m', Runs config root name step m finish m' ∧ finish.status = some 0
  left : (∃ finish, Runs config root name step m finish m') ∨
    (m' = m ∧ ¬ ∃ finish m', Runs config root name step m finish m')

section

variable {config : Config} {root name step : String} {m m' : Machine} {finish : Finish}

theorem command_eq_none_iff : config.command step = none ↔
    config.commands.get? step = none ∧ Config.builtinCommand step = none := by
  rw [Config.command]
  cases config.commands.get? step <;> simp

theorem Runs.unique {finish' : Finish} {m'' : Machine} (h : Runs config root name step m finish m')
    (h' : Runs config root name step m finish' m'') : finish = finish' ∧ m' = m'' := by
  obtain ⟨command, program, hcommand, hprogram, hcalled⟩ := h
  obtain ⟨command', program', hcommand', hprogram', hcalled'⟩ := h'
  obtain rfl := Option.some.inj (hcommand.symm.trans hcommand')
  obtain rfl := Option.some.inj (hprogram.symm.trans hprogram')
  exact hcalled.unique hcalled'

theorem not_unavailable {command : StepCommand} {program : String}
    (hcommand : config.command step = some command)
    (hprogram : m.find? command.program = some program) : ¬ Unavailable config step m := by
  rintro (hnone | ⟨command', hcommand', hnone⟩)
  · rw [← command_eq_none_iff, hcommand] at hnone
    cases hnone
  · obtain rfl := Option.some.inj (hcommand.symm.trans hcommand')
    rw [hprogram] at hnone
    cases hnone

theorem Runs.not_unavailable (h : Runs config root name step m finish m') :
    ¬ Unavailable config step m := by
  obtain ⟨command, program, hcommand, hprogram, -⟩ := h
  exact Sink.not_unavailable hcommand hprogram

theorem Unavailable.not_runs (h : Unavailable config step m) :
    ¬ ∃ finish m', Runs config root name step m finish m' :=
  fun ⟨_, _, hruns⟩ => hruns.not_unavailable h

theorem Unavailable.judges (h : Unavailable config step m) (reason : String) :
    Judges config root name step m (.skipped step reason) m where
  skipped_iff := iff_of_true ⟨reason, rfl⟩ h
  passed_iff := iff_of_false nofun fun ⟨_, _, hruns, _⟩ => hruns.not_unavailable h
  failed_iff := iff_of_false (fun ⟨_, hfailed⟩ => nomatch hfailed) fun hnot => hnot.1 h
  left := .inr ⟨rfl, h.not_runs⟩

theorem Runs.judges_passed (h : Runs config root name step m finish m')
    (hstatus : finish.status = some 0) : Judges config root name step m (.passed step) m' where
  skipped_iff := iff_of_false (fun ⟨_, hskipped⟩ => nomatch hskipped) h.not_unavailable
  passed_iff := iff_of_true rfl ⟨finish, m', h, hstatus⟩
  failed_iff := iff_of_false (fun ⟨_, hfailed⟩ => nomatch hfailed) fun hnot =>
    hnot.2 ⟨finish, m', h, hstatus⟩
  left := .inl ⟨finish, h⟩

/-- A program that is there and does not succeed, be it that it ends otherwise or that it cannot be
started. -/
theorem judges_failed (havailable : ¬ Unavailable config step m)
    (hunsuccessful : ¬ ∃ finish m', Runs config root name step m finish m' ∧
      finish.status = some 0)
    (hleft : (∃ finish, Runs config root name step m finish m') ∨
      (m' = m ∧ ¬ ∃ finish m', Runs config root name step m finish m')) (message : String) :
    Judges config root name step m (.failed step message) m' where
  skipped_iff := iff_of_false (fun ⟨_, hskipped⟩ => nomatch hskipped) havailable
  passed_iff := iff_of_false nofun hunsuccessful
  failed_iff := iff_of_true ⟨message, rfl⟩ ⟨havailable, hunsuccessful⟩
  left := hleft

/-- A program that is found runs exactly if its command starts. -/
theorem runs_iff {command : StepCommand} {program : String}
    (hcommand : config.command step = some command)
    (hprogram : m.find? command.program = some program) :
    Runs config root name step m finish m' ↔
      m.start ⟨program, command.arguments ++ [name], some root⟩ = .ok (finish, m') := by
  rw [Machine.start_eq_ok_iff]
  constructor
  · rintro ⟨command', program', hcommand', hprogram', hcalled⟩
    obtain rfl := Option.some.inj (hcommand.symm.trans hcommand')
    obtain rfl := Option.some.inj (hprogram.symm.trans hprogram')
    exact hcalled
  · exact fun hcalled => ⟨command, program, hcommand, hprogram, hcalled⟩

section

variable {outcome : StepOutcome} {after : Machine}

theorem Judges.of_unavailable (h : Judges config root name step m outcome after)
    (hunavailable : Unavailable config step m) :
    (∃ reason, outcome = .skipped step reason) ∧ after = m := by
  refine ⟨h.skipped_iff.2 hunavailable, ?_⟩
  obtain ⟨finish, hruns⟩ | ⟨hsame, -⟩ := h.left
  · exact absurd hunavailable hruns.not_unavailable
  · exact hsame

theorem Judges.of_runs (h : Judges config root name step m outcome after)
    (hruns : Runs config root name step m finish m') (hstatus : finish.status ≠ some 0) :
    (∃ message, outcome = .failed step message) ∧ after = m' := by
  constructor
  · refine h.failed_iff.2 ⟨hruns.not_unavailable, ?_⟩
    rintro ⟨finish', m'', hruns', hstatus'⟩
    exact hstatus ((hruns.unique hruns').1 ▸ hstatus')
  · obtain ⟨finish', hruns'⟩ | ⟨-, hnone⟩ := h.left
    · exact (hruns'.unique hruns).2
    · exact absurd ⟨finish, m', hruns⟩ hnone

end

theorem judges_runStep (config : Config) (root name step : String) (m : Machine) :
    Judges config root name step m (runStep config root name step m).1
      (runStep config root name step m).2.2 := by
  cases hcommand : config.command step with
  | none =>
      simp only [runStep, hcommand]
      exact Unavailable.judges (.inl (command_eq_none_iff.1 hcommand)) _
  | some command =>
      cases hprogram : m.find? command.program with
      | none =>
          simp only [runStep, hcommand, hprogram]
          exact Unavailable.judges (.inr ⟨command, hcommand, hprogram⟩) _
      | some program =>
          have havailable := not_unavailable hcommand hprogram
          simp only [runStep, hcommand, hprogram, Machine.runChecked_eq]
          cases hstart : m.start ⟨program, command.arguments ++ [name], some root⟩ with
          | error fault =>
              have hnone : ¬ ∃ finish m', Runs config root name step m finish m' := by
                rintro ⟨finish, m', hruns⟩
                rw [runs_iff hcommand hprogram, hstart] at hruns
                cases hruns
              refine judges_failed havailable ?_ (.inr ⟨rfl, hnone⟩) _
              exact fun ⟨finish, m', hruns, _⟩ => hnone ⟨finish, m', hruns⟩
          | ok ended =>
              obtain ⟨finish, m'⟩ := ended
              have hruns := (runs_iff hcommand hprogram).2 hstart
              by_cases hstatus : finish.status = some 0
              · simp only [hstatus, if_true]
                exact hruns.judges_passed hstatus
              · simp only [hstatus, if_false]
                refine judges_failed havailable ?_ (.inl ⟨finish, hruns⟩) _
                rintro ⟨finish', m'', hruns', hstatus'⟩
                exact hstatus ((hruns.unique hruns').1 ▸ hstatus')

end

/-! ## All steps of a unit -/

/-- Each step is judged once, on the files as the step before it has left them. -/
inductive Processes (config : Config) (root name : String) :
    List String → Machine → List StepOutcome → Machine → Prop where
  | nil (m : Machine) : Processes config root name [] m [] m
  | cons {step : String} {steps : List String} {m m' m'' : Machine} {outcome : StepOutcome}
      {outcomes : List StepOutcome} :
      Judges config root name step m outcome m' →
      Processes config root name steps m' outcomes m'' →
      Processes config root name (step :: steps) m (outcome :: outcomes) m''

theorem processes_runSteps (config : Config) (root name : String) (steps : List String)
    (m : Machine) : Processes config root name steps m (runSteps config root name steps m).1
      (runSteps config root name steps m).2.2 := by
  induction steps generalizing m with
  | nil => exact .nil m
  | cons step steps ih =>
      rw [runSteps]
      exact .cons (judges_runStep config root name step m) (ih _)

/-- A unit that is written is taken, with the outcomes of its steps. -/
theorem close_directory_of_writeIn {config : Config} {root : String} {u : OutputUnit}
    {m : Machine} {files : FileSystem}
    (h : m.files.writeIn root u.name u.text = (none, files)) : ∃ outcomes,
      ((directory config true root).close u m).result = .ok {
        name := u.name
        path := some (Path.join root u.name)
        lines := u.lines.length
        postProcess := outcomes } ∧
      Processes config root u.name u.postProcess { m with files } outcomes
        ((directory config true root).close u m).state := by
  refine ⟨(runSteps config root u.name u.postProcess { m with files }).1, ?_, ?_⟩
  · simp only [directory, h, if_true, summary]
  · simp only [directory, h, if_true]
    exact processes_runSteps config root u.name u.postProcess _

end Sink

end Bindery
