import Bindery.Proofs.Files.Confined
import Bindery.Proofs.Generation.DryRun

/-!
# Targets do not interfere

`independent_generate`: without steps, every target of a run is reported as if it were the only one,
and it does not matter in which order the targets are run.
-/

namespace Bindery

open FileSystem Bindery.Path

/-! ## One target -/

section

variable {out name : String} (hup : ".." ∉ rawParts out) (hname : IsName name)

namespace Emission

/-- Of a machine only its files change. -/
theorem state_ofStages (config : Config) (root : String) (stages : List Stage) (m : Machine) :
    (ofStages (Sink.directory config false root) stages m).2 =
      { m with files := (ofStages (Sink.directory config false root) stages m).2.files } := by
  induction stages generalizing m with
  | nil => rfl
  | cons stage stages ih =>
      rcases hwrite : m.files.writeIn root stage.unit.name stage.unit.text with ⟨_ | fault, files⟩
      · simp only [ofStages, Sink.close_directory, hwrite]
        exact ih { m with files }
      · simp only [ofStages, Sink.close_directory, hwrite]

/-- What stops stages is a unit that is refused. -/
theorem violations_ofStages {σ : Type} (sink : Sink σ) (stages : List Stage) (state : σ) :
    ∀ a ∈ (ofStages sink stages state).1.abort, a.violations = [] := by
  induction stages generalizing state with
  | nil => simp [ofStages]
  | cons stage stages ih =>
      cases hresult : (sink.close stage.unit state).result with
      | error fault => simp [ofStages, hresult, Abort.violations]
      | ok summary => simpa [ofStages, hresult] using ih (sink.close stage.unit state).state

include hup hname

theorem confined_ofStages (config : Config) {stages : List Stage}
    (hnames : ∀ stage ∈ stages, IsName stage.unit.name) (m : Machine) :
    Confined out name fun fs =>
      ((ofStages (Sink.directory config false (join out name)) stages { m with files := fs }).1,
        (ofStages (Sink.directory config false (join out name)) stages
          { m with files := fs }).2.files) := by
  intro names fs fs₂ hmem h
  induction stages generalizing fs fs₂ with
  | nil => exact .stay h _
  | cons stage stages ih =>
      obtain ⟨hunit, hnames⟩ := List.forall_mem_cons.1 hnames
      have hwrites := confined_writeIn hup hname hunit stage.unit.text names fs fs₂ hmem h
      rcases hwrite : fs.writeIn (join out name) stage.unit.name stage.unit.text with
        ⟨fault, files⟩
      rcases hwrite₂ : fs₂.writeIn (join out name) stage.unit.name stage.unit.text with
        ⟨fault₂, files₂⟩
      simp only [hwrite, hwrite₂] at hwrites
      obtain rfl : fault₂ = fault := hwrites.result
      cases fault₂ with
      | some fault =>
          simp only [ofStages, Sink.close_directory, hwrite, hwrite₂]
          exact hwrites.map fun _ => _
      | none =>
          simp only [ofStages, Sink.close_directory, hwrite, hwrite₂]
          have hrest := hwrites.trans (ih hnames files files₂ hwrites.beside)
          exact hrest.map fun rest => { rest with
            units := Sink.summaryIn (join out name) stage.unit :: rest.units
            issues := stage.issues ++ rest.issues
            log := stage.log ++
              [LogEntry.debug ("wrote " ++ join (join out name) stage.unit.name)] ++ rest.log }

end Emission

namespace TargetReport

theorem violations_ofEmission {σ : Type} (id : TargetId) (s : Spec) (sink : Sink σ)
    (stages : List Stage) (state : σ) :
    (ofEmission id s (Emission.ofStages sink stages state).1).violations = [] := by
  have habort := Emission.violations_ofStages sink stages state
  rw [ofEmission]
  cases h : (Emission.ofStages sink stages state).1.abort with
  | none => rfl
  | some a => simp [aborted, habort a h]

section

variable {id : TargetId} {s : Spec} {bridgeModule : Option String}

/-- A target that a spec is not written for takes nothing. -/
theorem generate_of_not_stages
    (h : ¬ ∃ stages, s.validate (Target.ofId id).identifiers = [] ∧
      (Target.ofId id).stages s (bridgeModule.getD (Target.ofId id).bridgeModule) = .ok stages) :
    ∃ report, ∀ {σ : Type} (sink : Sink σ) (state : σ),
      (generate (.ofId id) s bridgeModule sink state).report = report ∧
        (generate (.ofId id) s bridgeModule sink state).state = state := by
  by_cases hvalid : s.validate (Target.ofId id).identifiers = []
  · cases hstages : (Target.ofId id).stages s (bridgeModule.getD (Target.ofId id).bridgeModule) with
    | error violations =>
        exact ⟨_, fun sink state => generate_of_refusal sink state hvalid hstages⟩
    | ok stages => exact absurd ⟨stages, hvalid, hstages⟩ h
  · exact ⟨_, fun sink state => generate_of_invalid hvalid bridgeModule sink state⟩

end

theorem state_generate (config : Config) (root : String) (id : TargetId) (s : Spec)
    (bridgeModule : Option String) (m : Machine) :
    (generate (.ofId id) s bridgeModule (Sink.directory config false root) m).state = { m with
      files := (generate (.ofId id) s bridgeModule
        (Sink.directory config false root) m).state.files } := by
  by_cases hstages : ∃ stages, s.validate (Target.ofId id).identifiers = [] ∧
      (Target.ofId id).stages s (bridgeModule.getD (Target.ofId id).bridgeModule) = .ok stages
  · obtain ⟨stages, hvalid, hstages⟩ := hstages
    rw [(generate_of_stages _ m hvalid hstages).2]
    exact Emission.state_ofStages config root stages m
  · obtain ⟨report, hreport⟩ := generate_of_not_stages hstages
    rw [(hreport _ m).2]

include hup hname

theorem confined_generate (config : Config) (id : TargetId) (s : Spec)
    (bridgeModule : Option String) (m : Machine) :
    Confined out name fun fs =>
      ((generate (.ofId id) s bridgeModule (Sink.directory config false (join out name))
          { m with files := fs }).report,
        (generate (.ofId id) s bridgeModule (Sink.directory config false (join out name))
          { m with files := fs }).state.files) := by
  intro names fs fs₂ hmem h
  by_cases hstages : ∃ stages, s.validate (Target.ofId id).identifiers = [] ∧
      (Target.ofId id).stages s (bridgeModule.getD (Target.ofId id).bridgeModule) = .ok stages
  · obtain ⟨stages, hvalid, hstages⟩ := hstages
    have hnames := Target.isName_unit ((s.validate_eq_nil_iff _).1 hvalid) hstages
    have hemission := Emission.confined_ofStages hup hname config hnames m names fs fs₂ hmem h
    simp only [generate_of_stages _ _ hvalid hstages]
    exact hemission.map (ofEmission id s)
  · obtain ⟨report, hreport⟩ := generate_of_not_stages hstages
    simp only [hreport]
    exact .stay h report

end TargetReport

end

namespace Report

variable {s : Spec} {o : GenerateOptions}

/-- What is done for a target on files. -/
def onFiles (s : Spec) (o : GenerateOptions) (m : Machine) (id : TargetId) (fs : FileSystem) :
    TargetReport × FileSystem :=
  ((generateTarget s o id { m with files := fs }).report,
    (generateTarget s o id { m with files := fs }).state.files)

/-- The files that a target is written to. -/
def cleared (o : GenerateOptions) (id : TargetId) (fs : FileSystem) :
    Except FileFault FileSystem :=
  if o.clean then fs.clear (o.root id) else .ok fs

variable {id : TargetId} {m : Machine} (hdry : o.dryRun = false)

include hdry

theorem generateTarget_of_error {fault : FileFault} (h : cleared o id m.files = .error fault) :
    generateTarget s o id m = {
      report := TargetReport.aborted { target := id } (.clean (o.root id) fault)
      log := [TargetReport.warning id fault.message]
      state := m } := by
  rw [cleared] at h
  simp [generateTarget, hdry, h]

variable (hpost : o.postProcess = false)

include hpost

theorem generateTarget_of_ok {files : FileSystem} (h : cleared o id m.files = .ok files) :
    generateTarget s o id m = TargetReport.generate (.ofId id) s o.bridgeModule
      (Sink.directory o.config false (o.root id)) { m with files } := by
  rw [cleared] at h
  simp [generateTarget, hdry, hpost, h]

omit hdry

/-- Of a machine only its files change. -/
theorem state_generateTarget (id : TargetId) (m : Machine) :
    (generateTarget s o id m).state =
      { m with files := (generateTarget s o id m).state.files } := by
  cases hdry : o.dryRun with
  | true => rw [generateTarget_dry hdry]
  | false =>
      cases hclear : cleared o id m.files with
      | error fault => rw [generateTarget_of_error hdry hclear]
      | ok files =>
          rw [generateTarget_of_ok hdry hpost hclear]
          exact TargetReport.state_generate o.config (o.root id) id s o.bridgeModule _

variable (hup : ".." ∉ rawParts o.outputDirectory)

include hup

theorem confined_onFiles (m : Machine) (id : TargetId) :
    Confined o.outputDirectory id.name (onFiles s o m id) := by
  intro names fs fs₂ hmem h
  cases hdry : o.dryRun with
  | true =>
      simp only [onFiles, generateTarget_dry hdry]
      exact .stay h _
  | false =>
      have hcleared : Alike o.outputDirectory id.name names fs fs₂
          (fs.attempt (cleared o id fs)) (fs₂.attempt (cleared o id fs₂)) := by
        cases hclean : o.clean with
        | true =>
            simp only [cleared, hclean]
            exact confined_clear hup id.isName_name names fs fs₂ hmem h
        | false =>
            simp only [cleared, hclean]
            exact .stay h none
      cases hclear : cleared o id fs with
      | error fault =>
          cases hclear₂ : cleared o id fs₂ with
          | ok files₂ =>
              have hresult := hcleared.result
              simp [hclear, hclear₂, attempt] at hresult
          | error fault₂ =>
              obtain rfl : fault₂ = fault := by
                simpa [hclear, hclear₂, attempt] using hcleared.result
              rw [onFiles, onFiles,
                generateTarget_of_error (m := { m with files := fs }) hdry hclear,
                generateTarget_of_error (m := { m with files := fs₂ }) hdry hclear₂]
              exact .stay h _
      | ok files =>
          cases hclear₂ : cleared o id fs₂ with
          | error fault₂ =>
              have hresult := hcleared.result
              simp [hclear, hclear₂, attempt] at hresult
          | ok files₂ =>
              rw [onFiles, onFiles,
                generateTarget_of_ok (m := { m with files := fs }) hdry hpost hclear,
                generateTarget_of_ok (m := { m with files := fs₂ }) hdry hpost hclear₂]
              rw [hclear, hclear₂, attempt, attempt] at hcleared
              have hgenerate := TargetReport.confined_generate hup id.isName_name o.config id s
                o.bridgeModule m names files files₂ hmem hcleared.beside
              have hroot : join o.outputDirectory id.name = o.root id := rfl
              rw [hroot] at hgenerate
              exact hcleared.trans hgenerate

omit hup in
theorem generateAll_eq_runAll (ids : List TargetId) (m : Machine) :
    (generateAll s o ids m).report = (runAll (onFiles s o m) ids m.files).1 ∧
      (generateAll s o ids m).state =
        { m with files := (runAll (onFiles s o m) ids m.files).2 } := by
  induction ids generalizing m with
  | nil => exact ⟨rfl, rfl⟩
  | cons id ids ih =>
      have hfirst := state_generateTarget (s := s) hpost id m
      obtain ⟨hreport, hstate⟩ := ih (generateTarget s o id m).state
      rw [hfirst] at hreport hstate
      rw [generateAll, runAll]
      simp only
      rw [hfirst, hreport, hstate]
      exact ⟨rfl, rfl⟩

end Report

/-! ## All targets -/

namespace GenerateOptions

/-- The targets that are asked for, as often as they are. -/
def asked (o : GenerateOptions) : List TargetId :=
  if o.targets.isEmpty then TargetId.all else o.targets

theorem mem_requested {o : GenerateOptions} {id : TargetId} : id ∈ o.requested ↔ id ∈ o.asked := by
  rw [requested, asked]
  split
  · rfl
  · exact (firsts_distinct o.targets).mem id

theorem pairwise_requested (o : GenerateOptions) :
    o.requested.Pairwise fun a b => o.asked.idxOf a < o.asked.idxOf b := by
  rw [requested, asked]
  split
  · decide
  · exact (firsts_distinct o.targets).ordered

end GenerateOptions

namespace Report

/-- The targets of a run do not interfere. -/
structure Independent (s : Spec) (o : GenerateOptions) (m : Machine) : Prop where
  /-- The targets are reported in the order in which they are first asked for. -/
  ordered : ((generate s o m).report.targets.map TargetReport.target).Pairwise fun a b =>
    o.asked.idxOf a < o.asked.idxOf b
  complete : ∀ id, id ∈ (generate s o m).report.targets.map TargetReport.target ↔ id ∈ o.asked
  /-- A target that is the only one asked for is reported in the same way. -/
  alone : ∀ r ∈ (generate s o m).report.targets,
    (generate s { o with targets := [r.target] } m).report.targets = [r]
  /-- In whatever order the targets are run, the same is reported and the same files are left. -/
  anyOrder : ∀ ids, ids.Perm o.requested →
    (generateAll s o ids m).report.Perm (generate s o m).report.targets ∧
      SameFiles (generate s o m).state.files (generateAll s o ids m).state.files
  /-- Outside the directories of the targets nothing is changed, apart from directories that are
  made where one is missing on the way. -/
  elsewhere : ∀ l, (∀ id ∈ o.asked, ¬ m.files.place (o.root id) <+: l) →
    (generate s o m).state.files.kindAt l = m.files.kindAt l ∨
      (m.files.OnWay o.outputDirectory l ∧ m.files.kindAt l = none ∧
        (generate s o m).state.files.kindAt l = some .directory)
  /-- A spec that violates what a target asks of it changes nothing, unless it is cleaned. -/
  violated : ∀ id m', o.clean = false → (generateTarget s o id m').report.violations ≠ [] →
    (generateTarget s o id m').state = m'

theorem state_of_violations {s : Spec} {o : GenerateOptions} {id : TargetId} {m : Machine}
    (hpost : o.postProcess = false) (hclean : o.clean = false)
    (h : (generateTarget s o id m).report.violations ≠ []) :
    (generateTarget s o id m).state = m := by
  cases hdry : o.dryRun with
  | true => rw [generateTarget_dry hdry]
  | false =>
      have hcleared : cleared o id m.files = .ok m.files := by simp [cleared, hclean]
      rw [generateTarget_of_ok hdry hpost hcleared] at h ⊢
      by_cases hstages : ∃ stages, s.validate (Target.ofId id).identifiers = [] ∧
          (Target.ofId id).stages s (o.bridgeModule.getD (Target.ofId id).bridgeModule) =
            .ok stages
      · obtain ⟨stages, hvalid, hstages⟩ := hstages
        rw [(TargetReport.generate_of_stages _ _ hvalid hstages).1] at h
        exact absurd (TargetReport.violations_ofEmission _ s _ stages _) h
      · obtain ⟨report, hreport⟩ := TargetReport.generate_of_not_stages hstages
        exact (hreport _ _).2

/-- For every spec, whatever is asked for, and whatever files there are. -/
theorem independent_generate (s : Spec) (o : GenerateOptions) (m : Machine)
    (hpost : o.postProcess = false) (hup : ".." ∉ rawParts o.outputDirectory) :
    Independent s o m := by
  have hconfined := confined_onFiles (s := s) hpost hup m
  have hkeys : (o.requested.map TargetId.name).Nodup :=
    List.pairwise_map.2 (o.nodup_requested.imp fun hne heq => hne (TargetId.name_injective heq))
  obtain ⟨hreport, hstate⟩ := generateAll_eq_runAll (s := s) hpost o.requested m
  have hreports : (generate s o m).report.targets =
      o.requested.map fun id => (generateTarget s o id m).report := by
    rw [result_runAll hconfined hkeys] at hreport
    exact hreport
  have htargets : (generate s o m).report.targets.map TargetReport.target = o.requested := by
    rw [hreports, List.map_map]
    exact (List.map_congr_left fun id _ => target_generateTarget s o id m).trans (List.map_id _)
  have hfiles : (generate s o m).state.files = (runAll (onFiles s o m) o.requested m.files).2 :=
    congrArg Machine.files hstate
  constructor
  case ordered =>
    rw [htargets]
    exact o.pairwise_requested
  case complete =>
    rw [htargets]
    exact fun id => GenerateOptions.mem_requested
  case alone =>
    intro r hr
    rw [hreports] at hr
    obtain ⟨id, -, rfl⟩ := List.mem_map.1 hr
    rw [target_generateTarget]
    rfl
  case anyOrder =>
    intro ids hperm
    obtain ⟨hreport', hstate'⟩ := generateAll_eq_runAll (s := s) hpost ids m
    constructor
    · rw [hreport', result_runAll hconfined ((hperm.map _).nodup_iff.2 hkeys), hreports]
      exact hperm.map fun id => (generateTarget s o id m).report
    · rw [hfiles, hstate']
      exact sameFiles_runAll hconfined hkeys hperm m.files
  case elsewhere =>
    intro l hl
    rw [hfiles]
    refine (beside_runAll hconfined _ m.files).kindAt l ?_
    rw [List.forall_mem_map]
    intro id hid
    rw [← o.place_root]
    exact hl id (GenerateOptions.mem_requested.1 hid)
  case violated => exact fun id m' hclean => state_of_violations hpost hclean

theorem independent_generate_cluttered :
    let o : GenerateOptions := {
      targets := [.python, .typescript, .python], outputDirectory := "out"
      postProcess := false, clean := true }
    o.postProcess = false ∧ ".." ∉ rawParts o.outputDirectory ∧
      Independent TargetReport.gappySpec o cluttered := by
  intro o
  have hup : ".." ∉ rawParts o.outputDirectory := by decide +kernel
  exact ⟨rfl, hup, independent_generate TargetReport.gappySpec o cluttered rfl hup⟩

end Report

end Bindery
