import Bindery.Proofs.Generation.Members

/-!
# Constants that share a name

Validation compares the members of an enumeration as far as their names differ.
`constants_nodup_iff`: what it leaves to the spec are names that a list has twice. Where members
have values, no name comes twice.
-/

namespace Bindery

namespace TargetId

variable (id : TargetId)

/-- The constants of an enumeration, each with its value. -/
def assignments (e : Enumeration) : List (String × String) :=
  e.constants.map fun c => ((Target.ofId id).identifiers.enumMember c.name, id.constantValue c)

/-- An enumeration around a line for each of its constants. -/
def assignmentsBlock (name : String) (e : Enumeration) : List String :=
  id.constantsBlock name e.isFlag
    ((id.assignments e).map fun assignment => id.assignmentLine assignment.1 assignment.2)

theorem enumerationBlock_constants (name : String) (e : Enumeration) :
    id.enumerationBlock name e e.constants = id.assignmentsBlock name e := by
  rw [enumerationBlock_eq, assignmentsBlock, assignments, List.map_map]
  exact congrArg _ (List.map_congr_left fun c _ => id.constantLine_eq c)

theorem enumerationBlocks_eq (s : Spec) :
    s.enumerationBlocks id.enumerationBlock =
      s.enumerations.entries.flatMap fun entry => id.assignmentsBlock entry.1 entry.2 :=
  List.flatMap_congr fun entry _ => id.enumerationBlock_constants entry.1 entry.2

variable {e : Enumeration}

theorem fst_assignments (h : e.ValuesFit) :
    (id.assignments e).map Prod.fst =
      e.memberNames.map (Target.ofId id).identifiers.enumMember := by
  rw [← (Constant.exact_constants h).1, assignments, List.map_map, List.map_map]
  rfl

/-- Identifiers are distinct where names are, for distinct names have distinct identifiers. -/
theorem nodup_assignments_iff (h : e.ValuesFit)
    (hapart : Set.InjOn (Target.ofId id).identifiers.enumMember {n | n ∈ e.memberNames}) :
    ((id.assignments e).map Prod.fst).Nodup ↔ e.memberNames.Nodup := by
  rw [id.fst_assignments h]
  constructor
  · exact List.Nodup.of_map _
  · intro hnames
    exact hnames.map_on fun _ hfirst _ hsecond => hapart hfirst hsecond

end TargetId

theorem Enumeration.nodup_memberNames {e : Enumeration} {values : OrderedMap (Option Number)}
    (h : e.members = .valued values) : e.memberNames.Nodup := by
  rw [memberNames, h]
  exact values.nodup

namespace TargetReport

/-- Every enumeration of a valid spec is written as one block, whose constants have the identifiers
of the members. These are distinct exactly if the names are, as they are where members have
values. -/
theorem constants_nodup_iff (id : TargetId) (s : Spec) (bridgeModule : Option String)
    (shelf : Shelf) (h : s.validate (Target.ofId id).identifiers = []) :
    let run := generate (.ofId id) s bridgeModule Sink.memory shelf
    run.report.error = none ∧ ∃ u, run.state.get? id.enumerationUnit = some u ∧
      (s.enumerations.entries.flatMap fun entry => id.assignmentsBlock entry.1 entry.2) <:+:
        u.lines ∧
      ∀ e ∈ s.enumerations.values,
        (id.assignments e).map Prod.fst =
          e.memberNames.map (Target.ofId id).identifiers.enumMember ∧
        (((id.assignments e).map Prod.fst).Nodup ↔ e.memberNames.Nodup) ∧
        ∀ values, e.members = .valued values → ((id.assignments e).map Prod.fst).Nodup := by
  have hsound := (s.validate_eq_nil_iff _).1 h
  obtain ⟨herror, u, hu, hlines⟩ := enumerationUnit_lines id s bridgeModule shelf h
  refine ⟨herror, u, hu, id.enumerationBlocks_eq s ▸ hlines, fun e he => ?_⟩
  have hiff := id.nodup_assignments_iff (hsound.valuesFit e he) (hsound.constantsApart e he)
  exact ⟨id.fst_assignments (hsound.valuesFit e he), hiff,
    fun values hvalues => hiff.2 (Enumeration.nodup_memberNames hvalues)⟩

/-- Reserved words as members, with and without values. -/
def transferSpec : Spec where
  enumerations := .ofList [
    ("Direction", .plain ["from", "import", "Import"]),
    ("Access", ⟨true, .valued (.ofList [
      ("in", some (.integer 1)), ("not", some (.integer 2)), ("inOut", some (.integer 3))])⟩)]

theorem constants_nodup_transferSpec :
    (∀ id, transferSpec.validate (Target.ofId id).identifiers = []) ∧
    ∀ id : TargetId, ∃ u,
      (generate (.ofId id) transferSpec none Sink.memory ∅).state.get? id.enumerationUnit =
        some u ∧
      (transferSpec.enumerations.entries.flatMap fun entry =>
        id.assignmentsBlock entry.1 entry.2) <:+: u.lines ∧
      ∀ e ∈ transferSpec.enumerations.values, ((id.assignments e).map Prod.fst).Nodup := by
  have h : ∀ id, transferSpec.validate (Target.ofId id).identifiers = [] := by
    intro id
    cases id <;> decide +kernel
  have hnames : ∀ e ∈ transferSpec.enumerations.values, e.memberNames.Nodup := by decide +kernel
  refine ⟨h, fun id => ?_⟩
  obtain ⟨-, u, hu, hlines, hconstants⟩ := constants_nodup_iff id transferSpec none ∅ (h id)
  exact ⟨u, hu, hlines, fun e he => (hconstants e he).2.1.2 (hnames e he)⟩

/-- A list that has a name twice. -/
def repeatedEnumeration : Enumeration := .plain ["Red", "Green", "Red"]

def repeatedSpec : Spec where
  enumerations := .ofList [("Color", repeatedEnumeration)]

theorem constants_repeated_repeatedSpec :
    (∀ id, repeatedSpec.validate (Target.ofId id).identifiers = []) ∧
    ∀ id : TargetId, ∃ u,
      (generate (.ofId id) repeatedSpec none Sink.memory ∅).state.get? id.enumerationUnit =
        some u ∧
      id.assignmentsBlock "Color" repeatedEnumeration <:+: u.lines ∧
      (id.assignments repeatedEnumeration).map Prod.fst = ["Red", "Green", "Red"] ∧
      ¬ ["Red", "Green", "Red"].Nodup := by
  have h : ∀ id, repeatedSpec.validate (Target.ofId id).identifiers = [] := by
    intro id
    cases id <;> decide +kernel
  refine ⟨h, fun id => ?_⟩
  obtain ⟨-, u, hu, hlines⟩ := enumerationUnit_lines id repeatedSpec none ∅ (h id)
  have hblock : (repeatedSpec.enumerations.entries.flatMap fun entry =>
      id.assignmentsBlock entry.1 entry.2) = id.assignmentsBlock "Color" repeatedEnumeration :=
    List.append_nil _
  rw [id.enumerationBlocks_eq, hblock] at hlines
  refine ⟨u, hu, hlines, ?_, by decide⟩
  cases id <;> decide +kernel

end TargetReport

end Bindery
