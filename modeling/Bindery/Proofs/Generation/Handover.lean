import Bindery.Proofs.Generation.Emission

/-!
# What a sink is handed

A record is kept of every unit that is handed over, with what the sink makes of it.
`ofSpec_refused`: a target that is refused nothing gives up exactly if an enumeration is malformed,
and by then nothing has been handed over.
-/

namespace Bindery

open Validation

/-- A unit that was handed over, and what the sink made of it. -/
abbrev Attempt := OutputUnit × Except FileFault UnitSummary

/-- Hands every unit on and records what becomes of it. -/
def Sink.recording {σ : Type} (sink : Sink σ) : Sink (List Attempt × σ) where
  close u state :=
    let closing := sink.close u state.2
    { result := closing.result
      log := closing.log
      state := (state.1 ++ [(u, closing.result)], closing.state) }

theorem Sink.close_recording {σ : Type} (sink : Sink σ) (u : OutputUnit) (record : List Attempt)
    (state : σ) : sink.recording.close u (record, state) =
      { result := (sink.close u state).result
        log := (sink.close u state).log
        state := (record ++ [(u, (sink.close u state).result)], (sink.close u state).state) } :=
  rfl

namespace Emission

/-- Units are handed over one after the other until one is refused. -/
inductive HandsOver : List OutputUnit → List Attempt → List UnitSummary → Option Abort → Prop where
  | done : HandsOver [] [] [] none
  | refused (u : OutputUnit) (later : List OutputUnit) (fault : FileFault) :
      HandsOver (u :: later) [(u, .error fault)] [] (some (.output u.name fault))
  | taken {units : List OutputUnit} {attempts : List Attempt} {summaries : List UnitSummary}
      {abort : Option Abort} (u : OutputUnit) (summary : UnitSummary) :
      HandsOver units attempts summaries abort →
      HandsOver (u :: units) ((u, .ok summary) :: attempts) (summary :: summaries) abort

section

variable {σ : Type} (sink : Sink σ)

/-- The record changes nothing. The issues are those of the units that were handed over. -/
theorem ofStages_recording (stages : List Stage) (record : List Attempt) (state : σ) :
    ∃ attempts handed, ofStages sink.recording stages (record, state) =
        ((ofStages sink stages state).1, record ++ attempts, (ofStages sink stages state).2) ∧
      HandsOver (stages.map Stage.unit) attempts (ofStages sink stages state).1.units
        (ofStages sink stages state).1.abort ∧
      handed <+: stages ∧ attempts.map Prod.fst = handed.map Stage.unit ∧
      (ofStages sink stages state).1.issues = handed.flatMap Stage.issues := by
  induction stages generalizing record state with
  | nil => exact ⟨[], [], by simp [ofStages], .done, List.prefix_rfl, rfl, rfl⟩
  | cons stage stages ih =>
      simp only [ofStages, Sink.close_recording, List.map_cons]
      cases hresult : (sink.close stage.unit state).result with
      | error fault => exact ⟨_, [stage], rfl, .refused _ _ _, by simp, rfl, by simp⟩
      | ok summary =>
          obtain ⟨attempts, handed, hrun, hhands, hfront, hunits, hissues⟩ :=
            ih (record ++ [(stage.unit, .ok summary)]) (sink.close stage.unit state).state
          refine ⟨(stage.unit, .ok summary) :: attempts, stage :: handed, ?_, .taken _ _ hhands,
            (List.prefix_cons_inj stage).2 hfront, ?_, ?_⟩
          · simp only [hrun, List.append_assoc, List.singleton_append]
          · rw [List.map_cons, hunits, List.map_cons]
          · rw [hissues, List.flatMap_cons]

/-- The record changes nothing, whatever the spec. -/
theorem ofSpec_recording (id : TargetId) (s : Spec) (bridgeModule : Option String) (state : σ) :
    (ofSpec (.ofId id) s bridgeModule sink.recording ([], state)).1 =
        (ofSpec (.ofId id) s bridgeModule sink state).1 ∧
      (ofSpec (.ofId id) s bridgeModule sink.recording ([], state)).2.2 =
        (ofSpec (.ofId id) s bridgeModule sink state).2 := by
  cases hstages : (Target.ofId id).stages s (bridgeModule.getD (Target.ofId id).bridgeModule) with
  | error violations =>
      rw [ofSpec_of_refusal hstages, ofSpec_of_refusal hstages]
      exact ⟨rfl, rfl⟩
  | ok stages =>
      obtain ⟨attempts, -, hrun, -⟩ := ofStages_recording sink stages [] state
      simp [ofSpec_of_stages hstages, hrun]

theorem generate_recording (id : TargetId) (s : Spec) (bridgeModule : Option String) (state : σ) :
    let run := TargetReport.generate (.ofId id) s bridgeModule sink.recording ([], state)
    let plain := TargetReport.generate (.ofId id) s bridgeModule sink state
    run.report = plain.report ∧ run.log = plain.log ∧ run.state.2 = plain.state := by
  have hrecord := ofSpec_recording sink id s bridgeModule state
  rw [TargetReport.generate, TargetReport.generate]
  split
  next =>
    revert hrecord
    rcases ofSpec (.ofId id) s bridgeModule sink.recording ([], state) with
      ⟨emission, record, last⟩
    rcases ofSpec (.ofId id) s bridgeModule sink state with ⟨emission', last'⟩
    rintro ⟨rfl, rfl⟩
    exact ⟨rfl, rfl, rfl⟩
  next => exact ⟨rfl, rfl, rfl⟩

variable {sink}

/-- Nothing stops a target whose sink takes everything. -/
theorem abort_ofStages_of_takes
    (hsink : ∀ u state, ∃ summary, (sink.close u state).result = .ok summary)
    (stages : List Stage) (state : σ) : (ofStages sink stages state).1.abort = none := by
  induction stages generalizing state with
  | nil => rfl
  | cons stage stages ih =>
      obtain ⟨summary, hsummary⟩ := hsink stage.unit state
      simp only [ofStages, hsummary]
      exact ih _

end

end Emission

/-! ## Malformed enumerations -/

/-- A flag without an integer, or values that are not of flags. -/
inductive Enumeration.Malformed : Enumeration → Prop where
  | unvalued {names : List String} : names ≠ [] → Malformed ⟨true, .plain names⟩
  | inexact {values : OrderedMap (Option Number)} {value : Option Number} :
      value ∈ values.values → (∀ i : Int, value ≠ some (.integer i)) →
      Malformed ⟨true, .valued values⟩
  | valued (values : OrderedMap (Option Number)) : Malformed ⟨false, .valued values⟩

namespace Enumeration

theorem malformed_iff {e : Enumeration} : e.Malformed ↔ ¬ e.ValuesFit := by
  constructor
  · rintro (hne | ⟨hmem, hvalue⟩ | values) hfits
    · obtain hnone | ⟨_, heq, -⟩ := hfits.flag rfl
      · exact hne (Members.plain.inj hnone)
      · cases heq
    · obtain hnone | ⟨_, heq, hvalues⟩ := hfits.flag rfl
      · cases hnone
      · cases heq
        obtain ⟨i, hi⟩ := hvalues _ hmem
        exact hvalue i hi
    · obtain ⟨_, heq⟩ := hfits.plain rfl
      cases heq
  · intro hfits
    obtain ⟨isFlag, members⟩ := e
    cases members with
    | plain names =>
        cases isFlag with
        | false => exact absurd ⟨nofun, fun _ => ⟨names, rfl⟩⟩ hfits
        | true => exact .unvalued fun hnil => hfits ⟨fun _ => .inl (by rw [hnil]), nofun⟩
    | valued values =>
        cases isFlag with
        | false => exact .valued values
        | true =>
            have hsome : ∃ value ∈ values.values, ∀ i : Int, value ≠ some (.integer i) := by
              by_contra hall
              push Not at hall
              exact hfits ⟨fun _ => .inr ⟨values, rfl, hall⟩, nofun⟩
            obtain ⟨value, hmem, hvalue⟩ := hsome
            exact .inexact hmem hvalue

theorem ofMemberValues_ne_nil_iff {name : String} {e : Enumeration} :
    ofMemberValues name e ≠ [] ↔ e.Malformed := by
  rw [malformed_iff, ne_eq, ofMemberValues_eq_nil_iff]

end Enumeration

/-- The enumeration is the first of the spec that is malformed. -/
def Spec.FirstMalformed (s : Spec) (name : String) (e : Enumeration) : Prop :=
  e.Malformed ∧ ∃ before after, s.enumerations.entries = before ++ (name, e) :: after ∧
    ∀ entry ∈ before, ¬ entry.2.Malformed

namespace Spec

variable {s : Spec} {rules : IdentifierRules}

theorem firstFaults_eq_none_iff :
    s.firstFaults rules = none ↔ ∀ entry ∈ s.enumerations.entries, ¬ entry.2.Malformed := by
  simp only [firstFaults, List.find?_eq_none, List.forall_mem_map, Enumeration.faults_eq,
    decide_eq_true_eq, Enumeration.ofMemberValues_ne_nil_iff]

theorem firstMalformed_of_firstFaults {violations : List Violation}
    (h : s.firstFaults rules = some violations) :
    ∃ name e, s.FirstMalformed name e ∧ violations = ofMemberValues name e := by
  simp only [firstFaults, Enumeration.faults_eq, List.find?_map, Option.map_eq_some_iff] at h
  obtain ⟨⟨name, e⟩, hfind, rfl⟩ := h
  obtain ⟨hfaults, before, after, hentries, hbefore⟩ := List.find?_eq_some_iff_append.1 hfind
  refine ⟨name, e, ⟨?_, before, after, hentries, fun entry hentry => ?_⟩, rfl⟩
  · exact Enumeration.ofMemberValues_ne_nil_iff.1 (of_decide_eq_true hfaults)
  · refine mt (@Enumeration.ofMemberValues_ne_nil_iff entry.1 entry.2).2 ?_
    simpa using hbefore entry hentry

end Spec

namespace Emission

/-- A target whose sink takes everything gives a spec up exactly if an enumeration is malformed. It
names what is wrong with the first one, and nothing has been handed over. -/
theorem ofSpec_refused (id : TargetId) (s : Spec) (bridgeModule : Option String) {σ : Type}
    (sink : Sink σ) (hsink : ∀ u state, ∃ summary, (sink.close u state).result = .ok summary)
    (state : σ) :
    let run := ofSpec (.ofId id) s bridgeModule sink.recording ([], state)
    (run.1 = (ofSpec (.ofId id) s bridgeModule sink state).1 ∧
      run.2.2 = (ofSpec (.ofId id) s bridgeModule sink state).2) ∧
    ((∃ violations, run.1.abort = some (.invalidSpec id violations)) ↔
      ∃ entry ∈ s.enumerations.entries, entry.2.Malformed) ∧
    (run.1.abort ≠ none → ∃ name e, s.FirstMalformed name e ∧
      run.1.abort = some (.invalidSpec id (ofMemberValues name e)) ∧
      run.1.units = [] ∧ run.1.issues = [] ∧ run.2 = ([], state)) := by
  intro run
  have hrecord := ofSpec_recording sink id s bridgeModule state
  refine ⟨hrecord, ?_⟩
  cases hfaults : s.firstFaults (Target.ofId id).identifiers with
  | none =>
      have hwell := Spec.firstFaults_eq_none_iff.1 hfaults
      have hfits : s.ValuesFit := OrderedMap.forall_mem_values.2 fun entry hentry =>
        not_not.1 (mt Enumeration.malformed_iff.2 (hwell entry hentry))
      obtain ⟨stages, hstages, -, -⟩ := Target.stages_of_valuesFit id hfits
        (bridgeModule.getD (Target.ofId id).bridgeModule)
      have habort : run.1.abort = none := by
        rw [hrecord.1, ofSpec_of_stages hstages]
        exact abort_ofStages_of_takes hsink stages state
      constructor
      · constructor
        · rintro ⟨violations, hviolations⟩
          rw [habort] at hviolations
          cases hviolations
        · rintro ⟨entry, hentry, hmalformed⟩
          exact absurd hmalformed (hwell entry hentry)
      · exact fun hne => absurd habort hne
  | some violations =>
      obtain ⟨name, e, hfirst, rfl⟩ := Spec.firstMalformed_of_firstFaults hfaults
      have hrun : run =
          ({ log := enumerationLog s.enumerations.entries
             abort := some (.invalidSpec id (ofMemberValues name e)) }, [], state) :=
        ofSpec_of_refusal (Target.stages_of_firstFaults hfaults _) _ _
      obtain ⟨hmalformed, before, after, hentries, hbefore⟩ := hfirst
      rw [hrun]
      constructor
      · refine iff_of_true ⟨_, rfl⟩ ⟨(name, e), ?_, hmalformed⟩
        rw [hentries]
        exact List.mem_append_right before List.mem_cons_self
      · exact fun _ =>
          ⟨name, e, ⟨hmalformed, before, after, hentries, hbefore⟩, rfl, rfl, rfl, rfl⟩

theorem ofSpec_refused_modesSpec :
    (∀ u shelf, ∃ summary, (Sink.memory.close u shelf).result = .ok summary) ∧
    (∃ entry ∈ (modesSpec none).enumerations.entries, entry.2.Malformed) ∧
    ∀ id : TargetId,
      let run := ofSpec (.ofId id) (modesSpec none) none Sink.memory.recording ([], ∅)
      (∃ violations, run.1.abort = some (.invalidSpec id violations)) ∧ run.2 = ([], ∅) := by
  have htakes (u : OutputUnit) (shelf : Shelf) :
      ∃ summary, (Sink.memory.close u shelf).result = .ok summary := ⟨_, rfl⟩
  have hmalformed : ∃ entry ∈ (modesSpec none).enumerations.entries, entry.2.Malformed :=
    ⟨_, List.mem_cons_of_mem _ List.mem_cons_self,
      .inexact (List.mem_cons_of_mem _ (List.mem_cons_of_mem _ List.mem_cons_self)) nofun⟩
  refine ⟨htakes, hmalformed, fun id => ?_⟩
  obtain ⟨-, hiff, habort⟩ := ofSpec_refused id (modesSpec none) none Sink.memory htakes ∅
  obtain ⟨violations, hviolations⟩ := hiff.2 hmalformed
  obtain ⟨name, e, -, -, -, -, hstate⟩ := habort (by simp [hviolations])
  exact ⟨⟨violations, hviolations⟩, hstate⟩

end Emission

end Bindery
