import Bindery.Proofs.Firsts
import Bindery.Proofs.Generation.Agreement
import Bindery.Proofs.Generation.Directory

/-!
# Dry runs

`shows_generate`: a dry run reports of every target what a run reports, and keeps in memory what
the run leaves in the directory of the target, unless the run gives the target up.
-/

namespace Bindery

open FileSystem Bindery.Path

/-! ## The directories of targets -/

theorem TargetId.name_injective : Function.Injective TargetId.name := by
  intro id id' h
  cases id <;> cases id' <;> simp [TargetId.name] at h ⊢

namespace GenerateOptions

variable {o : GenerateOptions}

theorem root_ne_empty (o : GenerateOptions) (id : TargetId) : o.root id ≠ "" := by
  intro hempty
  have hparts := id.isName_name.parts_join o.outputDirectory
  have hroot : join o.outputDirectory id.name = "" := hempty
  rw [hroot] at hparts
  exact List.append_ne_nil_of_right_ne_nil _ (List.cons_ne_nil _ _) hparts.symm

theorem place_root (o : GenerateOptions) (id : TargetId) (fs : FileSystem) :
    fs.place (o.root id) = fs.place o.outputDirectory ++ [id.name] :=
  place_join id.isName_name fs

theorem not_mem_rawParts_root (hup : ".." ∉ rawParts o.outputDirectory) (id : TargetId) :
    ".." ∉ rawParts (o.root id) :=
  id.isName_name.not_mem_rawParts_join hup

theorem leads_getLast?_rawParts_root (o : GenerateOptions) (id : TargetId) :
    ∀ part ∈ (rawParts (o.root id)).getLast?, leads part = true :=
  id.isName_name.leads_getLast?_rawParts_join o.outputDirectory

section

variable {id : TargetId} {fs : FileSystem} {entries : List (String × Entry)}
  (hup : ".." ∉ rawParts o.outputDirectory) (hpath : Admissible (o.root id))

include hup hpath

/-- There is nothing to remove where the directory of a target is missing. -/
theorem clear_root
    (hdirectory : fs.root.get? (fs.place o.outputDirectory) = some (.directory entries))
    (hmissing : entries.lookup id.name = none) : fs.clear (o.root id) = .ok fs := by
  have hlocate := locate_join id.isName_name hpath hup hdirectory
  have hexists : fs.exists? (o.root id) = false := by
    rw [exists?, entry?, root, hlocate, hmissing]
    rfl
  rw [clear, hexists]
  rfl

theorem ensure_root
    (hplain : pathOf (isAbsolute (o.root id)) (parts (o.root id)).reverse = o.root id)
    (hdirectory : fs.root.get? (fs.place o.outputDirectory) = some (.directory entries))
    (hmissing : entries.lookup id.name = none) :
    ∃ made, fs.ensure (o.root id) = (none, made) ∧
      made.root.get? (made.place (o.root id)) = some (.directory []) := by
  refine ⟨_, ensure_join hup id.isName_name hpath hplain hdirectory hmissing, ?_⟩
  obtain ⟨entries', hput, hlookup⟩ := Entry.exists_put_singleton id.name (.directory []) entries
  rw [o.place_root, Entry.get?_concat]
  refine (congrArg (Option.bind · _) (Entry.get?_put_append hdirectory _)).trans ?_
  rw [hput, Option.bind_some, Entry.get?_singleton, hlookup, if_pos rfl]

end

/-- Targets come in the order in which they are first asked for. -/
theorem firsts_distinct (ids : List TargetId) : Firsts ids (distinct ids) := by
  induction ids with
  | nil => exact .nil
  | cons id ids ih => exact ih.cons id

theorem nodup_requested (o : GenerateOptions) : o.requested.Nodup := by
  rw [requested]
  split
  · decide
  · exact (firsts_distinct o.targets).nodup

end GenerateOptions

/-- The report of a target whose units were all written to a directory. -/
def TargetReport.written (s : Spec) (id : TargetId) (root : String) (stages : List Stage) :
    TargetReport where
  target := id
  units := stages.map fun stage => Sink.summaryIn root stage.unit
  coverage := s.coverage (Target.ofId id).mapping
  issues := stages.flatMap Stage.issues

namespace Report

/-! ## What a run does for one target -/

theorem generateTarget_dry {o : GenerateOptions} (hdry : o.dryRun = true) (s : Spec)
    (id : TargetId) (m : Machine) :
    generateTarget s o id m =
      { report := (TargetReport.generate (.ofId id) s o.bridgeModule Sink.memory ∅).report
        log := (TargetReport.generate (.ofId id) s o.bridgeModule Sink.memory ∅).log
        state := m } := by
  simp [generateTarget, hdry]

theorem target_generateTarget (s : Spec) (o : GenerateOptions) (id : TargetId) (m : Machine) :
    (generateTarget s o id m).report.target = id := by
  by_cases hdry : o.dryRun = true
  · rw [generateTarget_dry hdry, TargetReport.target_generate, Target.id_ofId]
  · cases hclear : (if o.clean = true then m.files.clear (o.root id) else .ok m.files) with
    | error fault => simp [generateTarget, hdry, hclear, TargetReport.aborted]
    | ok files =>
        simp [generateTarget, hdry, hclear, TargetReport.target_generate, Target.id_ofId]

/-- A directory has the units of the stages, and nothing else if it was cleaned. -/
structure Fills (clean : Bool) (root : String) (stages : List Stage) (fs : FileSystem) : Prop where
  admissible : Admissible root
  holds : Sink.Holds root (Sink.shelve stages ∅) fs
  only : clean = true →
    fs.root.get? (fs.place root) = some (.directory (Sink.files (Sink.shelve stages ∅)))

theorem Fills.keep {clean : Bool} {root : String} {stages : List Stage} {fs fs' : FileSystem}
    (h : Fills clean root stages fs) (hkeeps : Keeps (fs.place root) fs fs') :
    Fills clean root stages fs' where
  admissible := h.admissible
  holds := h.holds.keep hkeeps
  only hclean := by
    rw [place_eq_of_working hkeeps.working]
    simpa using hkeeps.inside [] _ (by simpa using h.only hclean)

theorem fills_of_writesAll {o : GenerateOptions} {id : TargetId} {stages : List Stage}
    {fs fs' : FileSystem} (hnames : stages.map (·.unit.name) = (Target.ofId id).unitNames)
    (hcleared : o.clean = true → Admissible (o.root id) →
      fs.root.get? (fs.place (o.root id)) = none)
    (hwrites : Sink.WritesAll (o.root id) stages fs fs') :
    Fills o.clean (o.root id) stages fs' := by
  have hkeys : (Sink.shelve stages ∅).keys = (Target.ofId id).unitNames := by
    rw [← hnames]
    exact Sink.keys_shelve (hnames ▸ Target.nodup_unitNames id)
  have hholds := (Sink.holds_empty (o.root id) fs).shelve hwrites
  obtain ⟨name, hname⟩ := List.exists_mem_of_ne_nil _ (Target.unitNames_ne_nil id)
  have hpath : Admissible (o.root id) :=
    (hholds.admissible name (hkeys ▸ hname)).directory (Target.isName_of_mem_unitNames id hname)
      (o.root_ne_empty id)
  refine ⟨hpath, hholds, fun hclean => ?_⟩
  have hempty : Sink.HoldsOnly (o.root id) ∅ fs := .inr ⟨hcleared hclean hpath, rfl⟩
  rcases hempty.shelve hwrites with hfiles | ⟨-, hnil⟩
  · exact hfiles
  · have hnone := Sink.map_fst_files (Sink.shelve stages ∅)
    rw [hnil, hkeys] at hnone
    exact absurd hnone.symm (Target.unitNames_ne_nil id)

section

variable {o : GenerateOptions} (hdry : o.dryRun = false) (hpost : o.postProcess = false)
  (hup : ".." ∉ rawParts o.outputDirectory) (s : Spec)

include hdry hpost hup

theorem generateTarget_cases (id : TargetId) (m : Machine) :
    (∃ error, (generateTarget s o id m).report.error = some error ∧
        (generateTarget s o id m).state = m) ∨
      (∃ files, Spares (m.files.place (o.root id)) m.files files ∧
        (o.clean = true → Admissible (o.root id) →
          files.root.get? (files.place (o.root id)) = none) ∧
        generateTarget s o id m = TargetReport.generate (.ofId id) s o.bridgeModule
          (Sink.directory o.config false (o.root id)) { m with files }) := by
  have hroot := GenerateOptions.not_mem_rawParts_root hup id
  cases hclean : o.clean with
  | false =>
      refine .inr ⟨m.files, .refl _ _, nofun, ?_⟩
      simp [generateTarget, hdry, hpost, hclean]
  | true =>
      cases hclear : m.files.clear (o.root id) with
      | error fault =>
          refine .inl ?_
          simp [generateTarget, hdry, hclean, hclear, TargetReport.aborted]
      | ok files =>
          have hspares := spares_clear hroot hclear
          refine .inr ⟨files, hspares, fun _ hpath => ?_, ?_⟩
          · rw [place_eq_of_working hspares.working]
            have hne : m.files.place (o.root id) ≠ [] := by simp [o.place_root]
            exact get?_of_clear hroot hpath (o.leads_getLast?_rawParts_root id) hne hclear
          · simp [generateTarget, hdry, hpost, hclean, hclear]

theorem spares_generateTarget (id : TargetId) (m : Machine) :
    Spares (m.files.place (o.root id)) m.files (generateTarget s o id m).state.files := by
  rcases generateTarget_cases hdry hpost hup s id m with
    ⟨-, -, hstate⟩ | ⟨files, hspares, -, hgenerate⟩
  · rw [hstate]
    exact .refl _ _
  · have hroot := GenerateOptions.not_mem_rawParts_root hup id
    have hrest := @TargetReport.spares_generate o.config (o.root id) hroot id s o.bridgeModule
      { m with files }
    rw [place_eq_of_working hspares.working] at hrest
    rw [hgenerate]
    exact hspares.trans hrest

theorem generateTarget_completed {id : TargetId} {m : Machine}
    (h : (generateTarget s o id m).report.error = none) :
    s.validate (Target.ofId id).identifiers = [] ∧
      ∃ stages, (Target.ofId id).stages s
          (o.bridgeModule.getD (Target.ofId id).bridgeModule) = .ok stages ∧
        (generateTarget s o id m).report = .written s id (o.root id) stages ∧
        Fills o.clean (o.root id) stages (generateTarget s o id m).state.files := by
  rcases generateTarget_cases hdry hpost hup s id m with
    ⟨error, herror, -⟩ | ⟨files, -, hcleared, hgenerate⟩
  · simp [herror] at h
  · have hroot := GenerateOptions.not_mem_rawParts_root hup id
    rw [hgenerate] at h ⊢
    obtain ⟨hvalid, stages, hstages, habort, hreport, hstate⟩ := TargetReport.generate_completed h
    have hsound := (s.validate_eq_nil_iff _).1 hvalid
    have hnames := Target.isName_unit hsound hstages
    obtain ⟨hunits, hissues, hwrites⟩ :=
      Emission.ofStages_directory hroot hnames habort
    refine ⟨hvalid, stages, hstages, ?_, ?_⟩
    · rw [hreport, hunits, hissues, TargetReport.written]
    · rw [hstate]
      exact fills_of_writesAll (Target.names_stages hsound hstages) hcleared hwrites

/-- Where the output directory is there and that of a target is not, the target is not given up. -/
theorem error_generateTarget_eq_none {id : TargetId} {m : Machine}
    {entries : List (String × Entry)} (hvalid : s.validate (Target.ofId id).identifiers = [])
    (hpath : ∀ name ∈ (Target.ofId id).unitNames, Admissible (join (o.root id) name))
    (hplain : pathOf (isAbsolute (o.root id)) (parts (o.root id)).reverse = o.root id)
    (hdirectory : m.files.root.get? (m.files.place o.outputDirectory) = some (.directory entries))
    (hmissing : entries.lookup id.name = none) :
    (generateTarget s o id m).report.error = none := by
  have hroot := GenerateOptions.not_mem_rawParts_root hup id
  have hlast := o.leads_getLast?_rawParts_root id
  obtain ⟨name, hname⟩ := List.exists_mem_of_ne_nil _ (Target.unitNames_ne_nil id)
  have hadmissible : Admissible (o.root id) :=
    (hpath name hname).directory (Target.isName_of_mem_unitNames id hname) (o.root_ne_empty id)
  have hclear := GenerateOptions.clear_root hup hadmissible hdirectory hmissing
  obtain ⟨made, hensure, hmade⟩ :=
    GenerateOptions.ensure_root hup hadmissible hplain hdirectory hmissing
  have hsound := (s.validate_eq_nil_iff _).1 hvalid
  obtain ⟨stages, hstages, -⟩ := Target.stages_of_sound id hsound
    (o.bridgeModule.getD (Target.ofId id).bridgeModule)
  have hnames : ∀ stage ∈ stages, stage.unit.name ∈ (Target.ofId id).unitNames := by
    rw [← Target.names_stages hsound hstages]
    exact fun stage hstage => List.mem_map_of_mem hstage
  have hgenerate : generateTarget s o id m = TargetReport.generate (.ofId id) s o.bridgeModule
      (Sink.directory o.config false (o.root id)) m := by
    simp [generateTarget, hdry, hpost, hclear]
  rw [hgenerate]
  refine TargetReport.error_generate_eq_none hvalid hstages ?_
  rw [Emission.abort_ofStages_of_ensure hensure (ensure_of_get? hadmissible hroot hlast hmade)]
  exact Emission.abort_ofStages_eq_none hroot (Target.isName_unit hsound hstages)
    (o.root_ne_empty id) hlast (fun stage hstage => hpath _ (hnames stage hstage)) hmade
    (fun _ _ _ => by simp)

/-- What is in the directory of a target is kept while other targets are generated. -/
theorem keeps_generateAll {id : TargetId} {ids : List TargetId} (hid : id ∉ ids) (m : Machine) :
    Keeps (m.files.place (o.root id)) m.files (generateAll s o ids m).state.files := by
  induction ids generalizing m with
  | nil => exact .refl _ _
  | cons other ids ih =>
      obtain ⟨hother, hids⟩ := List.ne_and_not_mem_of_not_mem_cons hid
      have hname : other.name ≠ id.name := fun heq => hother (TargetId.name_injective heq.symm)
      have hspares := spares_generateTarget hdry hpost hup s other m
      have hunrelated : (m.files.place (o.root other)).Unrelated (m.files.place (o.root id)) := by
        rw [o.place_root, o.place_root]
        exact Location.unrelated_concat hname _
      have hrest := ih hids (generateTarget s o other m).state
      rw [place_eq_of_working hspares.working] at hrest
      exact (hspares.keeps hunrelated).trans hrest

end

/-! ## What a dry run shows -/

/-- What a dry run keeps in memory of a target. -/
def kept (s : Spec) (bridgeModule : Option String) (id : TargetId) : Shelf :=
  (TargetReport.generate (.ofId id) s bridgeModule Sink.memory ∅).state

/-- A dry run reports of a target what a run does, and what it keeps is what the run leaves in the
directory. -/
structure Shows (shelf : Shelf) (clean : Bool) (root : String) (fs : FileSystem)
    (dry real : TargetReport) : Prop where
  completed : dry.error = none
  coverage : dry.coverage = real.coverage
  issues : dry.issues = real.issues
  units : dry.units.map (fun u => (u.name, u.lines)) = real.units.map fun u => (u.name, u.lines)
  names : shelf.keys = real.units.map UnitSummary.name
  written : ∀ u ∈ real.units, u.path = some (join root u.name) ∧
    ∃ unit, shelf.get? u.name = some unit ∧ fs.readText (join root u.name) = .ok unit.text
  only : clean = true → fs.entry? root = some (.directory (Sink.files shelf))

theorem shows_written {s : Spec} {o : GenerateOptions} (hup : ".." ∉ rawParts o.outputDirectory)
    {id : TargetId} {stages : List Stage} {fs : FileSystem}
    (hvalid : s.validate (Target.ofId id).identifiers = [])
    (hstages : (Target.ofId id).stages s
      (o.bridgeModule.getD (Target.ofId id).bridgeModule) = .ok stages)
    (h : Fills o.clean (o.root id) stages fs) :
    Shows (kept s o.bridgeModule id) o.clean (o.root id) fs
      (TargetReport.generate (.ofId id) s o.bridgeModule Sink.memory ∅).report
      (.written s id (o.root id) stages) := by
  have hroot := GenerateOptions.not_mem_rawParts_root hup id
  have hsound := (s.validate_eq_nil_iff _).1 hvalid
  have hnames := Target.names_stages hsound hstages
  have hkeys := Sink.keys_shelve (hnames ▸ Target.nodup_unitNames id)
  obtain ⟨hreport, hstate⟩ := TargetReport.generate_memory ∅ hvalid hstages
  rw [kept, hstate, hreport]
  constructor
  case completed | coverage | issues => rfl
  case units => simp [TargetReport.written, Sink.summaryIn]
  case names =>
    rw [hkeys]
    simp [TargetReport.written, Sink.summaryIn, Sink.summary, Function.comp_def]
  case written =>
    intro u hu
    obtain ⟨stage, hstage, rfl⟩ := List.mem_map.1 hu
    have hmem : stage.unit.name ∈ (Sink.shelve stages ∅).keys := by
      rw [hkeys]
      exact List.mem_map_of_mem hstage
    obtain ⟨unit, hunit⟩ := OrderedMap.exists_get?_of_mem_keys hmem
    refine ⟨rfl, unit, hunit, ?_⟩
    exact readText_join hroot (Target.isName_unit hsound hstages stage hstage)
      (h.holds.admissible _ hmem) (h.holds.written _ _ hunit)
  case only =>
    intro hclean
    have hlocate := locate_of_get? h.admissible hroot (o.leads_getLast?_rawParts_root id)
      (h.only hclean)
    simp only [hlocate, entry?]

theorem shows_generateAll {dry real : GenerateOptions} (hdry : dry.dryRun = true)
    (hbridge : dry.bridgeModule = real.bridgeModule) (hreal : real.dryRun = false)
    (hpost : real.postProcess = false) (hup : ".." ∉ rawParts real.outputDirectory) (s : Spec)
    {ids : List TargetId} (hids : ids.Nodup) (m m' : Machine) :
    List.Forall₂
      (fun d r => d.target = r.target ∧ (r.error = none →
        Shows (kept s real.bridgeModule r.target) real.clean (real.root r.target)
          (generateAll s real ids m).state.files d r))
      (generateAll s dry ids m').report (generateAll s real ids m).report := by
  induction ids generalizing m m' with
  | nil => exact .nil
  | cons id ids ih =>
      obtain ⟨hid, hids⟩ := List.nodup_cons.1 hids
      refine .cons ⟨?_, fun herror => ?_⟩ (ih hids _ _)
      · rw [target_generateTarget, target_generateTarget]
      · obtain ⟨hvalid, stages, hstages, hreport, hfills⟩ :=
          generateTarget_completed hreal hpost hup s herror
        have hkeeps := keeps_generateAll hreal hpost hup s hid (generateTarget s real id m).state
        rw [target_generateTarget, generateTarget_dry hdry, hbridge, hreport]
        exact shows_written hup hvalid hstages (hfills.keep hkeeps)

/-- Every target that a run without steps does not give up is not given up by a dry run. -/
theorem shows_generate (s : Spec) (o : GenerateOptions) (m : Machine)
    (hup : ".." ∉ rawParts o.outputDirectory) :
    let dry := generate s { o with dryRun := true } m
    let real := generate s { o with dryRun := false, postProcess := false } m
    List.Forall₂
      (fun d r => d.target = r.target ∧ (r.error = none →
        Shows (kept s o.bridgeModule r.target) o.clean (join o.outputDirectory r.target.name)
          real.state.files d r))
      dry.report.targets real.report.targets :=
  @shows_generateAll { o with dryRun := true }
    { o with dryRun := false, postProcess := false } rfl rfl rfl rfl hup s _ o.nodup_requested m m

/-- A directory for output that has something else in it. -/
def clutter : List (String × Entry) :=
  [("typescript", .directory [("removed.ts", .file (.text "old"))])]

def cluttered : Machine where
  files := ⟨.directory [("work", .directory [("out", .directory clutter)])], ["work"]⟩

theorem shows_generate_cluttered :
    let o : GenerateOptions := { targets := [.python], outputDirectory := "out", clean := true }
    let s := TargetReport.gappySpec
    let dry := generate s { o with dryRun := true } cluttered
    let real := generate s { o with dryRun := false, postProcess := false } cluttered
    real.report.targets.map TargetReport.error = [none] ∧
    List.Forall₂
      (fun d r => d.target = r.target ∧ (r.error = none →
        Shows (kept s o.bridgeModule r.target) o.clean (join o.outputDirectory r.target.name)
          real.state.files d r))
      dry.report.targets real.report.targets := by
  intro o s dry real
  have hup : ".." ∉ rawParts "out" := by decide +kernel
  have hpath : ∀ name ∈ (Target.ofId .python).unitNames,
      Admissible (join (o.root .python) name) := by decide +kernel
  have hplace : cluttered.files.place "out" = ["work", "out"] := by decide +kernel
  have hdirectory : cluttered.files.root.get? (cluttered.files.place "out") =
      some (.directory clutter) := by
    rw [hplace]
    rfl
  have herror := @error_generateTarget_eq_none { o with dryRun := false, postProcess := false }
    rfl rfl hup s .python cluttered clutter (by decide +kernel) hpath (by decide +kernel)
    hdirectory rfl
  exact ⟨congrArg (fun error => [error]) herror, shows_generate s o cluttered hup⟩

end Report

end Bindery
