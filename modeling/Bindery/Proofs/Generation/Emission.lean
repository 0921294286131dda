import Bindery.Proofs.Generation.Directory
import Bindery.Proofs.Target.Flags
import Mathlib.Data.List.Forall2

/-!
# Emission and validation agree

Enumerations are judged twice: by validation, and by the target that writes them.
`ofSpec_agrees`: the target refuses an enumeration exactly if validation has something against its
values, and for the same reasons. So nothing stops a spec without violations.
-/

namespace Bindery

open Validation

/-! ## The faults of an enumeration -/

def Violation.isCollision : Violation → Bool
  | .nameCollision .. => true
  | _ => false

/-- What validation has against an enumeration, apart from the identifiers of its members. -/
def Enumeration.faults (rules : IdentifierRules) (name : String) (e : Enumeration) :
    List Violation :=
  (ofEnumeration rules name e).filter fun v => !v.isCollision

namespace Validation

theorem isCollision_of_mem_collisions {scope : String} {render : String → String}
    {names : List String} {v : Violation} (h : v ∈ collisions scope render names) :
    v.isCollision = true := by
  rw [collisions_eq_filterMap] at h
  obtain ⟨name, -, hname⟩ := List.mem_filterMap.1 h
  obtain ⟨first, -, hfirst⟩ := Option.bind_eq_some_iff.1 hname
  split_ifs at hfirst
  cases hfirst
  rfl

theorem isCollision_of_mem_ofFlagValue {enumeration member : String} {value : Option Number}
    {v : Violation} (h : v ∈ ofFlagValue enumeration member value) : v.isCollision = false := by
  cases value with
  | none =>
      cases List.mem_singleton.1 h
      rfl
  | some number =>
      cases number with
      | integer i => cases h
      | real x =>
          cases List.mem_singleton.1 h
          rfl

theorem isCollision_of_mem_ofMemberValues {name : String} {e : Enumeration} {v : Violation}
    (h : v ∈ ofMemberValues name e) : v.isCollision = false := by
  obtain ⟨isFlag, members⟩ := e
  cases members with
  | plain names =>
      cases isFlag with
      | false => cases h
      | true =>
          obtain ⟨member, -, rfl⟩ := List.mem_map.1 h
          rfl
  | valued values =>
      cases isFlag with
      | false =>
          cases List.mem_singleton.1 h
          rfl
      | true =>
          obtain ⟨entry, -, hvalue⟩ := List.mem_flatMap.1 h
          exact isCollision_of_mem_ofFlagValue hvalue

end Validation

namespace Enumeration

theorem faults_eq (rules : IdentifierRules) (name : String) (e : Enumeration) :
    e.faults rules name = ofMemberValues name e := by
  have hcollisions : (collisions s!"enum {name}" rules.enumMember e.memberNames).filter
      (fun v => !v.isCollision) = [] :=
    List.filter_eq_nil_iff.2 fun v hv => by simp [isCollision_of_mem_collisions hv]
  have hvalues : (ofMemberValues name e).filter (fun v => !v.isCollision) =
      ofMemberValues name e :=
    List.filter_eq_self.2 fun v hv => by simp [isCollision_of_mem_ofMemberValues hv]
  rw [faults, ofEnumeration, List.filter_append, hcollisions, hvalues, List.nil_append]

end Enumeration

/-! ## The members of an enumeration that is written -/

namespace Constant

/-- A constant for a member with a value: the integer, to the digit. -/
def Gives (entry : String × Option Number) (c : Constant) : Prop :=
  ∃ i : Int, entry.2 = some (.integer i) ∧ c = .flag entry.1 (toString i)

/-- There is one constant for each member, and none of them is made up. -/
theorem exact_constants {e : Enumeration} (h : e.ValuesFit) :
    e.constants.map name = e.memberNames ∧
    (∀ names, e.members = .plain names → e.constants = names.map .named) ∧
    ∀ values, e.members = .valued values → List.Forall₂ Gives values.entries e.constants := by
  obtain ⟨isFlag, members⟩ := e
  cases members with
  | plain names =>
      have hconstants : (Enumeration.mk isFlag (.plain names)).constants = names.map .named := rfl
      refine ⟨?_, fun _ heq => ?_, nofun⟩
      · rw [hconstants, List.map_map]
        exact List.map_id'' (fun _ => rfl) names
      · cases heq
        exact hconstants
  | valued values =>
      cases isFlag with
      | false =>
          obtain ⟨_, hnames⟩ := h.plain rfl
          cases hnames
      | true =>
          obtain hnone | ⟨_, heq, hvalues⟩ := h.flag rfl
          · cases hnone
          · cases heq
            have hconstants := Enumeration.constants_valued hvalues
            refine ⟨?_, nofun, fun _ heq => ?_⟩
            · rw [hconstants, List.map_map]
              rfl
            · cases heq
              rw [hconstants, List.forall₂_map_right_iff, List.forall₂_same]
              intro entry hentry
              obtain ⟨i, hi⟩ := OrderedMap.forall_mem_values.1 hvalues entry hentry
              exact ⟨i, hi, by rw [hi]; rfl⟩

end Constant

/-! ## The first fault stops a target -/

/-- The faults of the first enumeration that has some. -/
def Spec.firstFaults (rules : IdentifierRules) (s : Spec) : Option (List Violation) :=
  (s.enumerations.entries.map fun entry => entry.2.faults rules entry.1).find? (· ≠ [])

theorem Spec.firstFaults_eq (rules : IdentifierRules) (s : Spec) :
    s.firstFaults rules = s.firstUnfit := by
  simp only [firstFaults, firstUnfit, Enumeration.faults_eq]

namespace Target

theorem stages_of_firstFaults {id : TargetId} {rules : IdentifierRules} {s : Spec}
    {violations : List Violation} (h : s.firstFaults rules = some violations)
    (bridgeModule : String) : (ofId id).stages s bridgeModule = .error violations := by
  rw [Spec.firstFaults_eq] at h
  obtain ⟨hnone, -⟩ | ⟨_, hsome, hcourse⟩ := course_cases id s bridgeModule
  · rw [hnone] at h
    cases h
  · rw [hsome] at h
    cases h
    rw [stages, hcourse]

theorem unitNames_ofId (id : TargetId) : (ofId id).unitNames = match id with
    | .typescript => ["enums.ts", "native.d.ts", "native.js"]
    | .python => ["native.pyi", "native.py"] := by
  cases id <;> rfl

end Target

namespace Emission

/-- A spec that is written to the end has values that fit. -/
theorem valuesFit_of_abort {id : TargetId} {s : Spec} {bridgeModule : Option String} {σ : Type}
    {sink : Sink σ} {state : σ}
    (h : (ofSpec (.ofId id) s bridgeModule sink state).1.abort = none) : s.ValuesFit := by
  cases hfaults : s.firstFaults (Target.ofId id).identifiers with
  | none => exact Spec.firstUnfit_eq_none_iff.1 (s.firstFaults_eq _ ▸ hfaults)
  | some violations =>
      rw [ofSpec_of_refusal (Target.stages_of_firstFaults hfaults _)] at h
      cases h

/-- An enumeration is refused exactly if it has faults, and with these; if it is taken, it has one
constant for each member. The first one that is refused stops a target before it closes a unit, and
nothing has been noted but the enumerations up to it. A spec without violations is written to the
end, unit by unit. -/
theorem ofSpec_agrees (id : TargetId) (s : Spec) (bridgeModule : Option String) :
    (∀ (rules : IdentifierRules) (name : String) (e : Enumeration),
      (∀ violations, Constant.ofEnumeration name e = .error violations ↔
        e.faults rules name ≠ [] ∧ violations = e.faults rules name) ∧
      ∀ constants, Constant.ofEnumeration name e = .ok constants →
        constants.map Constant.name = e.memberNames ∧
        (∀ names, e.members = .plain names → constants = names.map .named) ∧
        ∀ values, e.members = .valued values →
          List.Forall₂ Constant.Gives values.entries constants) ∧
    (∀ rules violations, s.firstFaults rules = some violations →
      ∀ {σ : Type} (sink : Sink σ) (state : σ), ofSpec (.ofId id) s bridgeModule sink state =
        ({ log := enumerationLog s.enumerations.entries
           abort := some (.invalidSpec id violations) }, state)) ∧
    (s.validate (Target.ofId id).identifiers = [] →
      let run := ofSpec (.ofId id) s bridgeModule Sink.memory ∅
      let names := match id with
        | .typescript => ["enums.ts", "native.d.ts", "native.js"]
        | .python => ["native.pyi", "native.py"]
      run.1.abort = none ∧ run.1.units.map UnitSummary.name = names ∧ run.2.keys = names) := by
  refine ⟨fun rules name e => ⟨fun violations => ?_, fun constants h => ?_⟩,
    fun rules violations h σ sink state => ?_, fun h => ?_⟩
  · rw [Constant.ofEnumeration_eq, ← Enumeration.faults_eq rules]
    split
    next hfits => simp [hfits]
    next hfaults =>
      rw [Except.error.injEq]
      exact ⟨fun heq => ⟨hfaults, heq.symm⟩, fun heq => heq.2.symm⟩
  · rw [Constant.ofEnumeration_eq] at h
    split at h
    next hfits =>
      cases h
      exact Constant.exact_constants (ofMemberValues_eq_nil_iff.1 hfits)
    next => cases h
  · exact ofSpec_of_refusal (Target.stages_of_firstFaults h _) sink state
  · have hsound := (s.validate_eq_nil_iff _).1 h
    obtain ⟨stages, -, hnames, habort, hunits, -, hstate⟩ :=
      ofSpec_memory id hsound.valuesFit bridgeModule ∅
    have hkeys : (Sink.shelve stages ∅).keys = (Target.ofId id).unitNames := by
      rw [Sink.keys_shelve (hnames ▸ Target.nodup_unitNames id), hnames]
    rw [← Target.unitNames_ofId id]
    refine ⟨habort, ?_, ?_⟩
    · rw [hunits, ← hnames, List.map_map]
      rfl
    · rw [hstate, hkeys]

/-- A plain enumeration and a flag enumeration, where one flag has the value that is given. -/
def modesSpec (all : Option Number) : Spec where
  enumerations := .ofList [("Mode", .plain ["read", "from"]),
    ("Access", ⟨true, .valued (.ofList [("read", some (.integer 1)), ("from", some (.integer 4)),
      ("all", all)])⟩)]

theorem ofSpec_agrees_modesSpec :
    ((∀ id, (modesSpec (some (.integer 5))).validate (Target.ofId id).identifiers = []) ∧
      ∀ id : TargetId,
        let run := ofSpec (.ofId id) (modesSpec (some (.integer 5))) none Sink.memory ∅
        run.1.abort = none ∧ run.2.keys = match id with
          | .typescript => ["enums.ts", "native.d.ts", "native.js"]
          | .python => ["native.pyi", "native.py"]) ∧
    (modesSpec none).firstFaults (Target.ofId .python).identifiers =
        some [.flagWithoutValue "Access" "all"] ∧
      ∀ id : TargetId, ofSpec (.ofId id) (modesSpec none) none Sink.memory ∅ =
        ({ log := [.debug "emitting enum Mode", .debug "emitting enum Access"]
           abort := some (.invalidSpec id [.flagWithoutValue "Access" "all"]) }, ∅) := by
  have hvalid : ∀ id,
      (modesSpec (some (.integer 5))).validate (Target.ofId id).identifiers = [] := by
    intro id
    cases id <;> decide +kernel
  have hfaults : (modesSpec none).firstFaults (Target.ofId .python).identifiers =
      some [.flagWithoutValue "Access" "all"] := by
    decide +kernel
  refine ⟨⟨hvalid, fun id => ?_⟩, hfaults, fun id => ?_⟩
  · obtain ⟨habort, -, hkeys⟩ := (ofSpec_agrees id _ none).2.2 (hvalid id)
    exact ⟨habort, hkeys⟩
  · exact (ofSpec_agrees id _ none).2.1 _ _ hfaults Sink.memory ∅

end Emission

end Bindery
