import Bindery.Machine.Script
import Bindery.Proofs.Generation.Interruption
import Bindery.Proofs.Output.Steps

/-!
# Steps in reports

`steps_accounted`: a unit that is written is reported with an outcome for each of its steps, and a
report warns of the steps that failed, of no others, and in their order.
-/

namespace Bindery

open Bindery.Path

/-! ## Units and their steps, one after the other -/

namespace Emission

/-- Units are written, and the steps of each are done before the next one is written. -/
inductive Finishes (config : Config) (root : String) :
    List OutputUnit → Machine → List UnitSummary → Machine → Prop where
  | nil (m : Machine) : Finishes config root [] m [] m
  | cons {u : OutputUnit} {units : List OutputUnit} {m m' m'' : Machine} {files : FileSystem}
      {outcomes : List StepOutcome} {summaries : List UnitSummary} :
      m.files.writeIn root u.name u.text = (none, files) →
      Sink.Processes config root u.name u.postProcess { m with files } outcomes m' →
      Finishes config root units m' summaries m'' →
      Finishes config root (u :: units) m
        ({ Sink.summaryIn root u with postProcess := outcomes } :: summaries) m''

theorem finishes_ofStages (config : Config) (root : String) (stages : List Stage) (m : Machine) :
    ∃ taken m', taken <+: stages.map Stage.unit ∧
      Finishes config root taken m
        (ofStages (Sink.directory config true root) stages m).1.units m' ∧
      ((ofStages (Sink.directory config true root) stages m).1.abort = none →
        taken = stages.map Stage.unit ∧
          m' = (ofStages (Sink.directory config true root) stages m).2) := by
  induction stages generalizing m with
  | nil => exact ⟨[], m, List.prefix_rfl, .nil m, fun _ => ⟨rfl, rfl⟩⟩
  | cons stage stages ih =>
      rcases hwrite : m.files.writeIn root stage.unit.name stage.unit.text with ⟨_ | fault, files⟩
      · obtain ⟨outcomes, hresult, hprocesses⟩ :=
          @Sink.close_directory_of_writeIn config root stage.unit m files hwrite
        obtain ⟨taken, m', hprefix, hfinishes, hall⟩ :=
          ih ((Sink.directory config true root).close stage.unit m).state
        simp only [ofStages, hresult]
        refine ⟨stage.unit :: taken, m', (List.prefix_cons_inj _).2 hprefix,
          .cons hwrite hprocesses hfinishes, fun habort => ?_⟩
        obtain ⟨htaken, hlast⟩ := hall habort
        exact ⟨by rw [htaken, List.map_cons], hlast⟩
      · have hresult : ((Sink.directory config true root).close stage.unit m).result =
            .error fault := by
          simp only [Sink.directory, hwrite]
        simp only [ofStages, hresult]
        exact ⟨[], m, List.nil_prefix, .nil m, by rintro ⟨⟩⟩

end Emission

/-! ## Failed steps -/

theorem StepOutcome.isFailure_iff {outcome : StepOutcome} :
    outcome.isFailure = true ↔ ∃ step message, outcome = .failed step message := by
  cases outcome with
  | passed step => simp [isFailure]
  | failed step message => simp [isFailure]
  | skipped step reason => simp [isFailure]

namespace TargetReport

open Emission

/-- Every outcome that a report knows of, with the unit it is about, in their order. -/
def outcomes (r : TargetReport) : List (String × StepOutcome) :=
  r.units.flatMap fun u => u.postProcess.map (u.name, ·)

theorem failedSteps_eq (r : TargetReport) :
    r.failedSteps = r.outcomes.filter fun entry => entry.2.isFailure := by
  simp only [failedSteps, outcomes, List.filter_flatMap, List.filter_map, Function.comp_def]

/-- A warning says which step failed on which unit, and why. -/
def Warns (id : TargetId) (entry : String × StepOutcome) (d : Diagnostic) : Prop :=
  ∃ step message, entry.2 = .failed step message ∧ d.severity = .warning ∧
    d.message = id.name ++ ": " ++ step ++ " failed on " ++ entry.1 ∧ d.context = [message]

theorem forall₂_warns (r : TargetReport) :
    List.Forall₂ (Warns r.target) r.failedSteps r.stepDiagnostics := by
  have hfailed : ∀ entry ∈ r.failedSteps, entry.2.isFailure = true := by
    rw [failedSteps_eq]
    exact fun entry hentry => (List.mem_filter.1 hentry).2
  rw [stepDiagnostics]
  generalize r.failedSteps = entries at hfailed
  induction entries with
  | nil => exact .nil
  | cons entry entries ih =>
      obtain ⟨hentry, hentries⟩ := List.forall_mem_cons.1 hfailed
      obtain ⟨unit, outcome⟩ := entry
      obtain ⟨step, message, rfl⟩ := StepOutcome.isFailure_iff.1 hentry
      exact .cons ⟨step, message, rfl, rfl, rfl, rfl⟩ (ih hentries)

/-- A target that is written into a directory goes on until the first unit that cannot be. -/
theorem finishes_generate (config : Config) (root : String) (id : TargetId) (s : Spec)
    (bridgeModule : Option String) (m : Machine) : ∃ taken m',
      taken <+: id.units s bridgeModule ∧
      Finishes config root taken m
        (generate (.ofId id) s bridgeModule (Sink.directory config true root) m).report.units m' ∧
      ((generate (.ofId id) s bridgeModule (Sink.directory config true root) m).report.error =
          none →
        taken = id.units s bridgeModule ∧
          m' = (generate (.ofId id) s bridgeModule (Sink.directory config true root) m).state) := by
  by_cases hvalid : s.validate (Target.ofId id).identifiers = []
  · obtain ⟨stages, hunits, -, hrun⟩ := @generate_eq_ofStages id s bridgeModule hvalid
    obtain ⟨hsummaries, -, herror, hstate⟩ := hrun (Sink.directory config true root) m
    rw [hsummaries, herror, hstate, Option.map_eq_none_iff, ← hunits]
    exact finishes_ofStages config root stages m
  · rw [(generate_of_invalid hvalid bridgeModule (Sink.directory config true root) m).1]
    exact ⟨[], m, List.nil_prefix, .nil m, by rintro ⟨⟩⟩

/-- Whatever the tools do, a unit that is written into a directory is taken, with one outcome for
each of its steps, in their order. A target goes on so until the first unit that cannot be written.
Its failed steps, and the warnings, are the outcomes that are failures, by units and steps. -/
theorem steps_accounted (config : Config) (root : String) :
    (∀ (u : OutputUnit) (m : Machine) (files : FileSystem),
      m.files.writeIn root u.name u.text = (none, files) →
      let closing := (Sink.directory config true root).close u m
      ∃ outcomes, closing.result = .ok { Sink.summaryIn root u with postProcess := outcomes } ∧
        Sink.Processes config root u.name u.postProcess { m with files } outcomes closing.state) ∧
    (∀ (id : TargetId) (s : Spec) (bridgeModule : Option String) (m : Machine),
      let run := generate (.ofId id) s bridgeModule (Sink.directory config true root) m
      ∃ taken m', taken <+: id.units s bridgeModule ∧
        Finishes config root taken m run.report.units m' ∧
        (run.report.error = none → taken = id.units s bridgeModule ∧ m' = run.state)) ∧
    ∀ r : TargetReport,
      r.failedSteps = (r.outcomes.filter fun entry => entry.2.isFailure) ∧
        List.Forall₂ (Warns r.target) r.failedSteps r.stepDiagnostics :=
  ⟨fun _ _ _ hwrite => Sink.close_directory_of_writeIn hwrite,
    fun id s bridgeModule m => finishes_generate config root id s bridgeModule m,
    fun r => ⟨r.failedSteps_eq, r.forall₂_warns⟩⟩

/-! ## A tool that fails -/

/-- A tool that adds a line to the file and fails. -/
def formatter : Script where
  append := "// fmt"
  complaints := "no"
  ending := .exit 2

/-- The tool in `/bin`, and the directory `/work/out` with what is given. -/
def workshop (output : List (String × Entry)) : Machine where
  files := ⟨.directory [("bin", .directory [("fmt", .file (.text ""))]),
    ("work", .directory [("out", .directory output)])], ["work"]⟩
  programs := [(["bin", "fmt"], formatter.program)]
  searchPath := ["/bin"]

def workshopConfig : Config where
  commands := .ofList [("format", ⟨"fmt", ["--write"]⟩)]

def formattedUnit : OutputUnit := ⟨"a.js", ["export"], ["format", "mypy", "unheard-of"]⟩

/-- The directory once the unit is written, with its text. -/
def formatted (text : String) : Machine := workshop [("a.js", .file (.text text))]

/-- Of the names in `/bin` one is that of a program, wherever one works. -/
theorem programAt_workshop {output : List (String × Entry)} {fs : FileSystem} {name : String}
    (hroot : fs.root = (workshop output).files.root) (hname : IsName name)
    (hpath : FileSystem.Admissible (join "/bin" name)) :
    (workshop output).programAt fs (join "/bin" name) =
      if name = "fmt" then .ok formatter.program else .error .notFound := by
  have habsolute : isAbsolute "/bin" = true := by decide +kernel
  have hparts : parts "/bin" = ["bin"] := by decide +kernel
  have hplace : fs.place "/bin" = ["bin"] := by
    simp [FileSystem.place, FileSystem.start, habsolute, hparts]
  have hbin : fs.root.get? (fs.place "/bin") =
      some (.directory [("fmt", .file (.text ""))]) := by
    rw [hplace, hroot]
    rfl
  have hlocate := FileSystem.locate_join hname hpath (by decide +kernel) hbin
  rw [hplace, lookup_cons_ite] at hlocate
  rw [Machine.programAt, hlocate]
  by_cases hfmt : name = "fmt"
  · subst hfmt
    rfl
  · rw [if_neg hfmt, if_neg hfmt]
    rfl

theorem find?_workshop (output : List (String × Entry)) {name : String} (hname : IsName name)
    (hpath : FileSystem.Admissible (join "/bin" name)) :
    (workshop output).find? name = if name = "fmt" then some (join "/bin" name) else none := by
  have hexecutable : (workshop output).isExecutable (join "/bin" name) = decide (name = "fmt") := by
    rw [Machine.isExecutable, programAt_workshop rfl hname hpath]
    by_cases hfmt : name = "fmt" <;> simp [hfmt, Except.isOk, Except.toBool]
  have hsearch : (workshop output).searchPath = ["/bin"] := rfl
  rw [Machine.find?_of_isName hname, hsearch, List.map_singleton, List.find?_singleton,
    hexecutable]
  simp

/-- The files of a tool that is called in the directory of the unit. -/
def called (text : String) : FileSystem :=
  { (formatted text).files with working := ["work", "out"] }

theorem edit_called :
    formatter.edit ["--write", "a.js"] (called "export\n") = called "export\n// fmt" := by
  have hname : IsName "a.js" := by decide +kernel
  have hout : (called "export\n").root.get? (called "export\n").working =
      some (.directory [("a.js", .file (.text "export\n"))]) := rfl
  have hlocate : (called "export\n").locate "a.js" =
      .ok (["work", "out", "a.js"], some (.file (.text "export\n"))) :=
    FileSystem.locate_name hname (by decide +kernel) hout
  have hedit : formatter.edit ["--write", "a.js"] (called "export\n") =
      ((called "export\n").appendText "a.js" "// fmt").toOption.getD (called "export\n") := rfl
  rw [hedit, FileSystem.appendText_of_locate _ hlocate]
  rfl

/-- The tool is called in the directory, and leaves its line in the unit. -/
theorem runs_format : Sink.Runs workshopConfig "out" "a.js" "format" (formatted "export\n")
    ⟨some 2, "", "no"⟩ (formatted "export\n// fmt") := by
  have hfmt : FileSystem.Admissible (join "/bin" "fmt") := by decide +kernel
  have hout : IsName "out" := by decide +kernel
  have hwork : (formatted "export\n").files.root.get? (formatted "export\n").files.working =
      some (.directory [("out", .directory [("a.js", .file (.text "export\n"))])]) := rfl
  have hlocate : (formatted "export\n").files.locate "out" =
      .ok (["work", "out"], some (.directory [("a.js", .file (.text "export\n"))])) :=
    FileSystem.locate_name hout (by decide +kernel) hwork
  have hprogram : (formatted "export\n").programFor (called "export\n") (join "/bin" "fmt") =
      .ok formatter.program := by
    have hroot : (called "export\n").root = (formatted "export\n").files.root := rfl
    rw [Machine.programFor_of_mem (by decide +kernel)]
    exact programAt_workshop hroot (by decide +kernel) hfmt
  exact ⟨⟨"fmt", ["--write"]⟩, join "/bin" "fmt", by decide +kernel,
    find?_workshop _ (by decide +kernel) hfmt, by decide +kernel, by decide +kernel,
    ["work", "out"], _, _, _, hlocate, hprogram, Prod.ext (by decide +kernel) edit_called, rfl⟩

theorem writeIn_workshop :
    (workshop []).files.writeIn "out" formattedUnit.name formattedUnit.text =
      (none, (formatted "export\n").files) := by
  have hplace : (workshop []).files.place "out" = ["work", "out"] := by decide +kernel
  have hout : (workshop []).files.root.get? ((workshop []).files.place "out") =
      some (.directory []) := by
    rw [hplace]
    rfl
  have hensure := FileSystem.ensure_of_get? (by decide +kernel) (by decide +kernel)
    (by decide +kernel) hout
  rw [FileSystem.writeIn_of_directory (by decide +kernel) (by decide +kernel) hensure
    (by decide +kernel) hout nofun, hplace]
  rfl

/-- The steps after one that fails are judged like any other; their programs are missing. The unit
is taken all the same. -/
theorem steps_accounted_workshop : ∃ message missing unknown,
    let outcomes := [StepOutcome.failed "format" message, .skipped "mypy" missing,
      .skipped "unheard-of" unknown]
    let closing := (Sink.directory workshopConfig true "out").close formattedUnit (workshop [])
    closing.result = .ok { Sink.summaryIn "out" formattedUnit with postProcess := outcomes } ∧
    closing.state = formatted "export\n// fmt" := by
  obtain ⟨outcomes, hresult, hprocesses⟩ :=
    (steps_accounted workshopConfig "out").1 formattedUnit (workshop []) _ writeIn_workshop
  obtain - | ⟨hformat, - | ⟨hmypy, - | ⟨hunknown, - | -⟩⟩⟩ := hprocesses
  have hmissing : Sink.Unavailable workshopConfig "mypy" (formatted "export\n// fmt") :=
    .inr ⟨⟨"mypy", []⟩, by decide +kernel,
      find?_workshop _ (by decide +kernel) (by decide +kernel)⟩
  have hnone (m : Machine) : Sink.Unavailable workshopConfig "unheard-of" m :=
    .inl ⟨by decide +kernel, by decide +kernel⟩
  obtain ⟨⟨message, rfl⟩, rfl⟩ := hformat.of_runs runs_format (by decide)
  obtain ⟨⟨missing, rfl⟩, rfl⟩ := hmypy.of_unavailable hmissing
  obtain ⟨⟨unknown, rfl⟩, hlast⟩ := hunknown.of_unavailable (hnone _)
  exact ⟨message, missing, unknown, hresult, hlast⟩

end TargetReport

end Bindery
