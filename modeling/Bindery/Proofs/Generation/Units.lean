import Bindery.Proofs.Generation.Memory
import Bindery.Proofs.Target.Flags
import Bindery.Proofs.Target.Python
import Bindery.Proofs.Target.TypeScript

/-!
# The units in memory

`get?_ofSpec`: what memory holds under a name after a spec was written, unit by unit.
-/

namespace Bindery

namespace TargetId

/-- The unit with every declaration. -/
def declarationUnit : TargetId → String
  | .typescript => "native.d.ts"
  | .python => "native.pyi"

def statements : TargetId → Spec → List Statement
  | .typescript => TypeScript.statements
  | .python => Python.statements

def write : TargetId → Statement → List String
  | .typescript => TypeScript.write
  | .python => Python.write

def bridgeUnit : TargetId → String
  | .typescript => "native.js"
  | .python => "native.py"

def bridge : TargetId → Spec → String → List String
  | .typescript => TypeScript.bridge
  | .python => Python.bridge

/-- A unit with the steps of the target. -/
def unit : TargetId → String → List String → OutputUnit
  | .typescript, name, lines => ⟨name, lines, TypeScript.postProcess⟩
  | .python, name, lines => ⟨name, lines, Python.postProcess⟩

@[simp] theorem lines_unit (id : TargetId) (name : String) (lines : List String) :
    (id.unit name lines).lines = lines := by
  cases id <;> rfl

theorem enumerationBlocks_infix (id : TargetId) (s : Spec)
    (h : id.enumerationUnit = id.declarationUnit) :
    s.enumerationBlocks id.enumerationBlock <:+: (id.statements s).flatMap id.write := by
  cases id with
  | typescript => exact absurd h (by decide)
  | python =>
      change s.enumerationBlocks Python.enumerationBlock <:+:
        (Python.statements s).flatMap Python.write
      rw [Python.lines_statements]
      exact ⟨_, _, rfl⟩

end TargetId

namespace Emission

variable {id : TargetId} {s : Spec} {bridgeModule : Option String} (h : s.ValuesFit) (shelf : Shelf)

include h

theorem get?_ofSpec (name : String) :
    (ofSpec (.ofId id) s bridgeModule Sink.memory shelf).2.get? name =
      if name = id.declarationUnit then
        some (id.unit name ((id.statements s).flatMap id.write))
      else if name = id.bridgeUnit then
        some (id.unit name (id.bridge s (bridgeModule.getD (Target.ofId id).bridgeModule)))
      else if name = id.enumerationUnit then
        some (id.unit name (["// " ++ generatedBanner, "// Enums"] ++
          s.enumerationBlocks id.enumerationBlock))
      else shelf.get? name := by
  obtain ⟨stages, hstages, -, -, -, -, hstate⟩ := ofSpec_memory id h bridgeModule shelf
  rw [hstate]
  cases id with
  | typescript =>
      cases (TypeScript.stages_eq h _).symm.trans hstages
      simp only [Sink.shelve, List.foldl_cons, List.foldl_nil, OrderedMap.get?_insert,
        TypeScript.lines_declarations]
      split_ifs <;> simp_all [TargetId.declarationUnit, TargetId.bridgeUnit,
        TargetId.enumerationUnit, TargetId.unit, TargetId.bridge, TargetId.statements,
        TargetId.write, TargetId.enumerationBlock]
  | python =>
      cases (Python.stages_eq h _).symm.trans hstages
      simp only [Sink.shelve, List.foldl_cons, List.foldl_nil, OrderedMap.get?_insert,
        ← Python.lines_statements]
      split_ifs <;> simp_all [TargetId.declarationUnit, TargetId.bridgeUnit,
        TargetId.enumerationUnit, TargetId.unit, TargetId.bridge, TargetId.statements,
        TargetId.write]

theorem get?_enumerationUnit : ∃ u,
    (ofSpec (.ofId id) s bridgeModule Sink.memory shelf).2.get? id.enumerationUnit = some u ∧
      s.enumerationBlocks id.enumerationBlock <:+: u.lines := by
  rw [get?_ofSpec h]
  by_cases hsame : id.enumerationUnit = id.declarationUnit
  · refine ⟨_, if_pos hsame, ?_⟩
    rw [TargetId.lines_unit]
    exact id.enumerationBlocks_infix s hsame
  · have hother : id.enumerationUnit ≠ id.bridgeUnit := by
      cases id <;> decide
    refine ⟨_, (if_neg hsame).trans ((if_neg hother).trans (if_pos rfl)), ?_⟩
    rw [TargetId.lines_unit]
    exact (List.suffix_append _ _).isInfix

end Emission

namespace TargetReport

variable (id : TargetId) (s : Spec) (bridgeModule : Option String) (shelf : Shelf)
  (h : s.validate (Target.ofId id).identifiers = [])

include h

/-- A spec without violations is written to the end. -/
theorem generate_eq_ofSpec :
    let run := generate (.ofId id) s bridgeModule Sink.memory shelf
    s.ValuesFit ∧ run.report.error = none ∧
      run.state = (Emission.ofSpec (.ofId id) s bridgeModule Sink.memory shelf).2 := by
  have hfits := ((s.validate_eq_nil_iff _).1 h).valuesFit
  obtain ⟨stages, hstages, -, -, -, -, hstate⟩ :=
    Emission.ofSpec_memory id hfits bridgeModule shelf
  obtain ⟨hreport, hrun⟩ := generate_memory shelf h hstages
  exact ⟨hfits, by rw [hreport], hrun.trans hstate.symm⟩

theorem declarationUnit_lines :
    ∃ u, (generate (.ofId id) s bridgeModule Sink.memory shelf).state.get? id.declarationUnit =
      some u ∧ u.lines = (id.statements s).flatMap id.write := by
  obtain ⟨hfits, -, hstate⟩ := generate_eq_ofSpec id s bridgeModule shelf h
  rw [hstate, Emission.get?_ofSpec hfits]
  exact ⟨_, if_pos rfl, id.lines_unit _ _⟩

/-- A spec that can be written leaves a unit with all enumerations in memory. -/
theorem enumerationUnit_lines :
    let run := generate (.ofId id) s bridgeModule Sink.memory shelf
    run.report.error = none ∧ ∃ u, run.state.get? id.enumerationUnit = some u ∧
      s.enumerationBlocks id.enumerationBlock <:+: u.lines := by
  obtain ⟨hfits, herror, hstate⟩ := generate_eq_ofSpec id s bridgeModule shelf h
  refine ⟨herror, ?_⟩
  rw [hstate]
  exact Emission.get?_enumerationUnit hfits shelf

end TargetReport

end Bindery
