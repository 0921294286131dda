import Bindery.Proofs.Firsts
import Bindery.Proofs.Generation.Stages

/-!
# Diagnoses of invalid specs

`invalidSpec_diagnosed`: what is said of an invalid spec names every violation, and every help for
one just once. The report of the target has the same messages.
-/

namespace Bindery

namespace Diagnostic

/-! ## Suggestions -/

section

variable {all firsts : List String} (h : Firsts all firsts)

include h

/-- One more suggestion stands behind those that are there, unless it is one of them. -/
theorem firsts_suggest (s : String) : Firsts (all ++ [s]) (suggest firsts s) := by
  rw [suggest]
  split
  next hs => exact h.concat_of_mem (List.contains_iff_mem.1 hs)
  next hs => exact h.concat_of_not_mem (mt List.contains_iff_mem.2 hs)

theorem firsts_foldl_suggest (more : List String) :
    Firsts (all ++ more) (more.foldl suggest firsts) := by
  induction more generalizing all firsts with
  | nil => simpa using h
  | cons s more ih => simpa using ih (firsts_suggest h s)

end

/-! ## The text -/

/-- Numbers follow each other, from the first one on. -/
theorem numbered_eq_mapIdx (n : Nat) (lines : List String) :
    numbered n lines = lines.mapIdx fun i line => s!"  {n + i}. {line}\n" := by
  induction lines generalizing n with
  | nil => rfl
  | cons line lines ih =>
      rw [numbered, ih, List.mapIdx_cons]
      simp only [Nat.add_zero, Nat.add_comm, Nat.add_left_comm]

/-- The text of a diagnostic that suggests something, without colours. -/
theorem render_of_suggestions (d : Diagnostic) (h : d.suggestions ≠ []) :
    d.render false =
      d.severity.text ++ ": " ++ d.message ++ "\n" ++
        (d.location.map fun path => s!"  --> {path}\n").getD "" ++
        String.join (d.context.map fun line => s!"  - {line}\n") ++
        ("\nhelp: consider:\n" ++
          String.join (d.suggestions.mapIdx fun i s => s!"  {i + 1}. {s}\n")) := by
  have hhelp : helpText false d.suggestions =
      "\nhelp: consider:\n" ++
        String.join (d.suggestions.mapIdx fun i s => s!"  {i + 1}. {s}\n") := by
    rw [helpText, if_neg (mt List.isEmpty_iff.1 h), numbered_eq_mapIdx]
    simp only [Nat.add_comm]
    rfl
  rw [render, hhelp]
  rfl

end Diagnostic

open Diagnostic

namespace Abort

theorem firsts_suggestions (violations : List Violation) :
    Firsts (violations.filterMap Violation.help) (suggestions violations) := by
  have hhelps : (violations.flatMap fun v => v.help.toList) =
      violations.filterMap Violation.help := (List.filterMap_eq_flatMap_toList _ _).symm
  rw [suggestions, hhelps]
  exact firsts_foldl_suggest .nil (violations.filterMap Violation.help)

theorem help_not_mem_suggestions (target : TargetId) (violations : List Violation) :
    help (.invalidSpec target violations) ∉ suggestions violations := by
  intro hmem
  obtain ⟨v, -, hhelp⟩ := List.mem_filterMap.1 (((firsts_suggestions violations).mem _).1 hmem)
  cases v <;> simp [Violation.help, help] at hhelp

theorem nodup_suggestions_diagnostic (target : TargetId) (violations : List Violation) :
    (diagnostic (.invalidSpec target violations)).suggestions.Nodup := by
  have hfirsts := (firsts_suggestions violations).nodup
  refine List.nodup_append.2 ⟨hfirsts, List.pairwise_singleton _ _, ?_⟩
  rintro a ha b hb rfl
  rw [List.mem_singleton.1 hb] at ha
  exact help_not_mem_suggestions target violations ha

/-- What is said of an invalid spec has a line for each violation, in order, and each help for one
just once, where it first comes, with the general one at the end. As a text, the helps are numbered
from 1 on. The report of the target has the same lines, also where validation gave it up. -/
theorem invalidSpec_diagnosed (target : TargetId) (violations : List Violation) :
    let a := invalidSpec target violations
    let d := a.diagnostic
    d.context = violations.map Violation.message ∧
    d.suggestions.Nodup ∧
    (∃ helps, d.suggestions = helps ++ [a.help] ∧
      Firsts (violations.filterMap Violation.help) helps) ∧
    d.render false =
      "error: " ++ d.message ++ "\n" ++
        String.join (d.context.map fun line => s!"  - {line}\n") ++
        ("\nhelp: consider:\n" ++
          String.join (d.suggestions.mapIdx fun i help => s!"  {i + 1}. {help}\n")) ∧
    (∀ r : TargetReport, (r.aborted a).violations = d.context ∧
      (r.aborted a).diagnostic = some d) ∧
    ∀ {σ : Type} (t : Target) (s : Spec) (bridgeModule : Option String) (sink : Sink σ) (state : σ),
      t.id = target → s.validate t.identifiers = violations → violations ≠ [] →
      let r := (TargetReport.generate t s bridgeModule sink state).report
      r.violations = d.context ∧ r.diagnostic = some d := by
  intro a d
  refine ⟨rfl, nodup_suggestions_diagnostic target violations,
    ⟨suggestions violations, rfl, firsts_suggestions violations⟩, ?render,
    fun r => ⟨rfl, rfl⟩, ?generate⟩
  case render =>
    have hne : d.suggestions ≠ [] := List.append_ne_nil_of_right_ne_nil _ (List.cons_ne_nil _ _)
    have hlocation : (d.location.map fun path => s!"  --> {path}\n").getD "" = "" := rfl
    have hseverity : d.severity.text ++ ": " = "error: " := rfl
    rw [render_of_suggestions d hne, hlocation, hseverity, String.append_empty]
  case generate =>
    rintro σ t s bridgeModule sink state rfl rfl hne r
    have hr : r = TargetReport.aborted { target := t.id } a :=
      (TargetReport.generate_of_invalid hne bridgeModule sink state).1
    rw [hr]
    exact ⟨rfl, rfl⟩

/-- Two flags without a value, and a plain enumeration with values. -/
def valuelessSpec : Spec where
  enumerations := .ofList [
    ("Access", ⟨true, .valued (.ofList [("read", none), ("all", none)])⟩),
    ("Mode", ⟨false, .valued (.ofList [("on", some (.integer 1))])⟩)]

theorem invalidSpec_diagnosed_valuelessSpec :
    let violations := [.flagWithoutValue "Access" "read", .flagWithoutValue "Access" "all",
      .plainWithValues "Mode"]
    let d := (invalidSpec .python violations).diagnostic
    let r := (TargetReport.generate (.ofId .python) valuelessSpec none Sink.memory ∅).report
    valuelessSpec.validate (Target.ofId .python).identifiers = violations ∧
      r.violations = d.context ∧ r.diagnostic = some d ∧
      d.context = ["flag enum `Access` member `read` has no integer value",
        "flag enum `Access` member `all` has no integer value",
        "plain enum `Mode` declares explicit values"] ∧
      d.suggestions = ["Give every member of a flag enum an explicit integer value",
        "Mark the enum with `isFlag: true` or list member names only",
        "Fix the listed entities in the spec and re-run generation"] := by
  intro violations d r
  have hviolations : valuelessSpec.validate (Target.ofId .python).identifiers = violations := by
    decide +kernel
  obtain ⟨-, -, -, -, -, hreport⟩ := invalidSpec_diagnosed .python violations
  obtain ⟨hlist, hdiagnostic⟩ := hreport (.ofId .python) valuelessSpec none Sink.memory ∅ rfl
    hviolations (List.cons_ne_nil _ _)
  exact ⟨hviolations, hlist, hdiagnostic, by decide +kernel, by decide +kernel⟩

end Abort

end Bindery
