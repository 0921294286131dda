import Bindery.Proofs.Document.Reading
import Bindery.Proofs.Json.Layout
import Bindery.Report.Reading

/-!
# Reports read back

`Report.read_written`: a report is read back from the text it is written as, without its
diagnostics, and nothing that is shown of a report depends on these.
-/

namespace Bindery

open Json

/-! ## Values without fractions -/

theorem StepOutcome.exact_toJson (o : StepOutcome) : Exact o.toJson := by
  cases o <;> exact .object (by simp)

theorem UnitSummary.exact_toJson {u : UnitSummary} (h : u.lines < 2 ^ 64) : Exact u.toJson := by
  have hlines : Exact (.integer u.lines) := .integer ⟨by omega, by exact_mod_cast h⟩
  have hsteps : Exact (.list (u.postProcess.map StepOutcome.toJson)) :=
    .list (List.forall_mem_map.2 fun o _ => o.exact_toJson)
  refine .object ?_
  cases u.path <;> cases u.postProcess.isEmpty <;> simp [optionalMember, hlines, hsteps]

theorem CoverageWarning.exact_toJson (w : CoverageWarning) : Exact w.toJson := by
  cases w <;> exact .object (by simp)

theorem Issue.exact_toJson (i : Issue) : Exact i.toJson := by
  refine .object ?_
  cases i.detail <;> simp [optionalMember]

theorem TargetReport.exact_toJson {t : TargetReport} (h : ∀ u ∈ t.units, u.lines < 2 ^ 64) :
    Exact t.toJson := by
  have hunits : Exact (.list (t.units.map UnitSummary.toJson)) :=
    .list (List.forall_mem_map.2 fun u hu => UnitSummary.exact_toJson (h u hu))
  have hcoverage : Exact (.list (t.coverage.map CoverageWarning.toJson)) :=
    .list (List.forall_mem_map.2 fun w _ => w.exact_toJson)
  have hissues : Exact (.list (t.issues.map Issue.toJson)) :=
    .list (List.forall_mem_map.2 fun i _ => i.exact_toJson)
  have hviolations : Exact (.strings t.violations) :=
    .list (List.forall_mem_map.2 fun s _ => .string s)
  refine .object ?_
  cases t.error <;> cases t.violations.isEmpty <;>
    simp [optionalMember, hunits, hcoverage, hissues, hviolations]

theorem Report.exact_toJson {r : Report} (h : ∀ t ∈ r.targets, ∀ u ∈ t.units, u.lines < 2 ^ 64) :
    Exact r.toJson :=
  .object (List.forall_mem_singleton.2
    (.list (List.forall_mem_map.2 fun t ht => TargetReport.exact_toJson (h t ht))))

/-! ## Reading the parts -/

variable {r : Reading}

/-- A container that is entered takes one from the room. -/
theorem Reading.le_room_enter {n : Nat} (h : n + 1 ≤ r.room) : n ≤ r.enter.room :=
  Nat.le_sub_of_add_le h

theorem Json.read_list {α : Type} {read : Reading → Node → Except Fault α} {toJson : α → Json}
    {as : List α} (h : ∀ a ∈ as, read r.enter (toJson a).node = .ok a) :
    Reading.list read r (Json.list (as.map toJson)).node = .ok as := by
  have hnode : (Json.list (as.map toJson)).node = .list (as.map fun a => (toJson a).node) := by
    simp [Json.node, itemNodes_eq_map]
  rw [hnode]
  exact Reading.list_map h

theorem TargetId.read_name (id : TargetId) : TargetId.read r (.string id.name) = .ok id := by
  cases id <;> rfl

theorem IssueKind.read_tag (kind : IssueKind) : IssueKind.read r (.string kind.tag) = .ok kind := by
  cases kind <;> rfl

theorem CoverageWarning.read_node (w : CoverageWarning) : read r w.toJson.node = .ok w := by
  cases w <;> rfl

/-- A step is taken in as a whole, so there must be room for its table. -/
theorem StepOutcome.read_node (o : StepOutcome) (hroom : 1 ≤ r.room) :
    read r o.toJson.node = .ok o := by
  have hhas : r.HasRoom o.toJson.node := by
    cases o <;> exact .inr hroom
  have hreadable := o.exact_toJson.spelt.readable
  cases o with
  | passed step =>
      rw [read]
      refine (Reading.tagged_table _ _ rfl (by simp [memberNodes]) hreadable hhas).trans ?_
      rfl
  | failed step message =>
      refine (Reading.tagged_table _ _ rfl (by simp [memberNodes]) hreadable hhas).trans ?_
      rfl
  | skipped step reason =>
      refine (Reading.tagged_table _ _ rfl (by simp [memberNodes]) hreadable hhas).trans ?_
      rfl

theorem UnitSummary.read_node {u : UnitSummary} (hlines : u.lines < 2 ^ 64) (hroom : 3 ≤ r.room) :
    schema.read default r u.toJson.node = .ok u := by
  have hnatural : Reading.natural "usize" r.enter (.integer u.lines) = .ok u.lines := by
    have hfits : (u.lines : Int) < 18446744073709551616 := by omega
    simp [Reading.natural, hfits]
  have hsteps : Reading.list StepOutcome.read r.enter
      (Json.list (u.postProcess.map StepOutcome.toJson)).node = .ok u.postProcess :=
    read_list fun o _ => o.read_node (Reading.le_room_enter (Reading.le_room_enter hroom))
  have hdefault : (default : UnitSummary) = ⟨"", none, 0, []⟩ := rfl
  obtain ⟨name, path, lines, postProcess⟩ := u
  -- What is empty is not written, so each case has a table of its own.
  cases path <;> cases postProcess <;>
    simp_all [toJson, optionalMember, Json.node, memberNodes, Schema.read, Schema.readEntries,
      Schema.named?, Schema.missing?, schema, Schema.Field.must, Schema.Field.may, Reading.option,
      Reading.string, Reading.path]

theorem Issue.read_node (i : Issue) :
    schema.read ⟨.unmappablePrimitive, "", "", none⟩ r i.toJson.node = .ok i := by
  have hkind := IssueKind.read_tag (r := r.enter) i.kind
  obtain ⟨kind, identifier, location, detail⟩ := i
  cases detail <;>
    simp_all [toJson, optionalMember, Json.node, memberNodes, Schema.read, Schema.readEntries,
      Schema.named?, Schema.missing?, schema, Schema.Field.must, Schema.Field.may, Reading.option,
      Reading.string]

/-- The report of a target as documents keep it. -/
def TargetReport.stored (t : TargetReport) : TargetReport := { t with diagnostic := none }

theorem TargetReport.read_node {t : TargetReport} (hlines : ∀ u ∈ t.units, u.lines < 2 ^ 64)
    (hroom : 5 ≤ r.room) :
    schema.read { target := .typescript } r t.toJson.node = .ok t.stored := by
  have hunits : Reading.list (UnitSummary.schema.read default) r.enter
      (Json.list (t.units.map UnitSummary.toJson)).node = .ok t.units :=
    read_list fun u hu =>
      UnitSummary.read_node (hlines u hu) (Reading.le_room_enter (Reading.le_room_enter hroom))
  have hcoverage : Reading.list CoverageWarning.read r.enter
      (Json.list (t.coverage.map CoverageWarning.toJson)).node = .ok t.coverage :=
    read_list fun w _ => w.read_node
  have hissues : Reading.list (Issue.schema.read ⟨.unmappablePrimitive, "", "", none⟩) r.enter
      (Json.list (t.issues.map Issue.toJson)).node = .ok t.issues :=
    read_list fun i _ => i.read_node
  have hviolations : Reading.list Reading.string r.enter (Json.strings t.violations).node =
      .ok t.violations :=
    read_list fun _ _ => rfl
  have htarget := TargetId.read_name (r := r.enter) t.target
  obtain ⟨target, units, coverage, issues, error, violations, diagnostic⟩ := t
  cases error <;> cases violations <;>
    simp_all [toJson, stored, optionalMember, Json.node, memberNodes, Schema.read,
      Schema.readEntries, Schema.named?, Schema.missing?, schema, Schema.Field.must,
      Schema.Field.may, Reading.option, Reading.string]

/-! ## Whole reports -/

namespace Report

def stored (r : Report) : Report := ⟨r.targets.map TargetReport.stored⟩

/-- Everything that is shown of the reports is the same. -/
structure ShowsSame (r s : Report) : Prop where
  text : r.text = s.text
  errors : r.hasErrors = s.hasErrors
  placeholders : r.placeholderCount = s.placeholderCount
  summaries : r.targets.map TargetReport.placeholderSummary =
    s.targets.map TargetReport.placeholderSummary
  failures : r.targets.map TargetReport.failedSteps = s.targets.map TargetReport.failedSteps
  warnings : r.targets.map TargetReport.stepDiagnostics =
    s.targets.map TargetReport.stepDiagnostics

theorem showsSame_stored (report : Report) : report.stored.ShowsSame report where
  text := by
    rw [Report.text, stored, List.flatMap_map]
    rfl
  errors := by
    rw [hasErrors, stored, List.any_map]
    rfl
  placeholders := by
    rw [placeholderCount, stored, List.flatMap_map]
    rfl
  summaries := List.map_map
  failures := List.map_map
  warnings := List.map_map

theorem read_node {report : Report} (hroom : 7 ≤ r.room)
    (hlines : ∀ t ∈ report.targets, ∀ u ∈ t.units, u.lines < 2 ^ 64) :
    read r report.toJson.node = .ok report.stored := by
  have htargets : Reading.list (TargetReport.schema.read { target := .typescript }) r.enter
      (Json.list (report.targets.map TargetReport.toJson)).node = .ok report.stored.targets := by
    -- A diagnostic leaves no trace in what is written.
    have hsame : report.targets.map TargetReport.toJson =
        report.stored.targets.map TargetReport.toJson := by
      rw [stored, List.map_map]
      rfl
    rw [hsame]
    refine read_list (List.forall_mem_map.2 fun t ht => ?_)
    exact TargetReport.read_node (hlines t ht) (Reading.le_room_enter (Reading.le_room_enter hroom))
  rw [Json.node] at htargets
  simp [read, toJson, Json.node, memberNodes, Schema.read, Schema.readEntries, Schema.named?,
    Schema.missing?, schema, Schema.Field.must, htargets]

/-- A report is read back from either of its texts but for the diagnostics, and nothing that is
shown of it depends on these. A count of lines is a word. -/
theorem read_written (report : Report)
    (hlines : ∀ t ∈ report.targets, ∀ u ∈ t.units, u.lines < 2 ^ 64) :
    (∀ text ∈ [report.toJson.compact, report.toJson.indented],
      (Json.document text).read Report.read = .ok report.stored) ∧
    report.stored.ShowsSame report := by
  refine ⟨fun text htext => ?_, report.showsSame_stored⟩
  have hread := read_node (r := .json) (by decide) hlines
  rw [(exact_toJson hlines).document text htext]
  simp [Document.read, hread]

/-- Every member in both its states, texts that need escapes, and a diagnostic. -/
def mixedReport : Report where
  targets := [
    { target := .python
      units := [
        { name := "types.py"
          path := some "C:\\out\\types \"é\".py"
          lines := 18446744073709551615
          postProcess := [.passed "ruff", .failed "mypy" "line 1\n\tline 2", .skipped "" ""] },
        { name := "", lines := 0 }]
      coverage := [.primitive "long double", .template "std::map"]
      issues := [
        ⟨.unmappablePrimitive, "long double", "Store::get", none⟩,
        ⟨.unmappableTemplate, "std::map", "", some ""⟩,
        ⟨.unresolvedIdentifier, "std::map", "R.f", some "2 arguments"⟩]
      error := some ""
      violations := ["null", "\x00\x7f"]
      diagnostic := some { severity := .error, message := "lost" } },
    { target := .typescript }]

theorem read_written_mixedReport :
    (∀ t ∈ mixedReport.targets, ∀ u ∈ t.units, u.lines < 2 ^ 64) ∧
    (∀ text ∈ [mixedReport.toJson.compact, mixedReport.toJson.indented],
      (Json.document text).read Report.read = .ok mixedReport.stored) ∧
    mixedReport.stored.ShowsSame mixedReport :=
  ⟨by decide, read_written mixedReport (by decide)⟩

end Report

end Bindery
