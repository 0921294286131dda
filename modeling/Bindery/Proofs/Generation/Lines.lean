import Bindery.Proofs.Generation.Interruption
import Bindery.Proofs.Generation.Stubs

/-!
# Reported numbers of lines

`ofSpec_counted`: if there is no line feed in the names of a spec, the text of every unit has as
many as its summary counts, and cut at them it is the lines that were written.
-/

namespace Bindery

open Text

/-! ## Texts and their lines -/

theorem Text.count_join {c : Char} {parts : List (List Char)} (hne : parts ≠ [])
    (h : ∀ part ∈ parts, c ∉ part) : (join [c] parts).count c + 1 = parts.length := by
  induction parts with
  | nil => exact absurd rfl hne
  | cons part rest ih =>
      obtain ⟨hpart, hrest⟩ := List.forall_mem_cons.1 h
      have hnone : part.count c = 0 := List.count_eq_zero.2 hpart
      cases rest with
      | nil => simpa [join] using hnone
      | cons next rest =>
          have hlater := ih (List.cons_ne_nil next rest) hrest
          rw [join_cons_cons, List.count_append, List.count_append, hnone,
            List.count_singleton_self, List.length_cons]
          omega

namespace OutputUnit

variable {u : OutputUnit}

theorem toList_text (u : OutputUnit) :
    u.text.toList = join ['\n'] (u.lines.map String.toList) ++ ['\n'] := by
  rw [text, joined, String.toList_append, String.toList_ofList]
  rfl

theorem count_text (hne : u.lines ≠ []) (h : ∀ line ∈ u.lines, OneLine line) :
    u.text.toList.count '\n' = u.lines.length := by
  have hchars : u.lines.map String.toList ≠ [] := by simpa using hne
  have hjoin := count_join hchars (List.forall_mem_map.2 h)
  rw [toList_text, List.count_append, List.count_singleton_self, hjoin, List.length_map]

/-- The summary of a unit counts its lines, and its text has neither more of them nor fewer. -/
structure Counted (u : OutputUnit) (summary : UnitSummary) : Prop where
  name : summary.name = u.name
  oneLine : ∀ line ∈ u.lines, OneLine line
  nonempty : u.text ≠ ""
  ended : ['\n'] <:+ u.text.toList
  count : u.text.toList.count '\n' = summary.lines
  pieces : pieces "\n" u.text = u.lines ++ [""]

theorem counted_of_oneLine {summary : UnitSummary} (hname : summary.name = u.name)
    (hlines : summary.lines = u.lines.length) (hne : u.lines ≠ [])
    (h : ∀ line ∈ u.lines, OneLine line) : u.Counted summary where
  name := hname
  oneLine := h
  nonempty htext := by
    have hchars := u.toList_text
    rw [htext] at hchars
    exact absurd hchars.symm (by simp)
  ended := ⟨_, u.toList_text.symm⟩
  count := (count_text hne h).trans hlines.symm
  pieces := pieces_text rfl hne h

end OutputUnit

/-! ## The lines of a target -/

namespace TargetId

variable {s : Spec} {bridgeModule : Option String}

theorem oneLine_enumerationBlocks (h : s.EveryName OneLine) :
    ∀ line ∈ s.enumerationBlocks TypeScript.enumerationBlock, OneLine line := by
  refine List.forall_mem_flatMap.2 fun entry he => ?_
  -- the other target has enumerations among its statements
  have hst := Statement.ofEnumeration_mem_statements he
  have hwritten := TypeScript.oneLine_write (h.introduced .python _ hst)
    (h.memberNames .python _ hst) (python.oneLine_texts s _ hst) (List.forall_mem_nil _)
  exact hwritten

theorem oneLine_bridge (id : TargetId) (h : s.EveryName OneLine)
    (hmodule : ∀ module ∈ bridgeModule, OneLine module) :
    ∀ line ∈ id.bridge s (bridgeModule.getD (Target.ofId id).bridgeModule), OneLine line := by
  have hgiven : OneLine (bridgeModule.getD (Target.ofId id).bridgeModule) := by
    cases bridgeModule with
    | none => cases id <;> decide
    | some module => exact hmodule module rfl
  cases id with
  | typescript => exact TypeScript.oneLine_bridge h.classes hgiven
  | python => exact Python.oneLine_bridge h.classes hgiven

theorem oneLine_units (id : TargetId) (h : s.EveryName OneLine)
    (hmodule : ∀ module ∈ bridgeModule, OneLine module) :
    ∀ u ∈ id.units s bridgeModule, u.lines ≠ [] ∧ ∀ line ∈ u.lines, OneLine line := by
  have hdeclarations := id.oneLine_lines h
  have hbridge := id.oneLine_bridge h hmodule
  cases id with
  | typescript =>
      have henumerations : ∀ line ∈ ["// " ++ generatedBanner, "// Enums"] ++
          s.enumerationBlocks TypeScript.enumerationBlock, OneLine line :=
        List.forall_mem_append.2 ⟨by decide +kernel, oneLine_enumerationBlocks h⟩
      simp only [units, List.forall_mem_cons, lines_unit]
      exact ⟨⟨nofun, henumerations⟩, ⟨nofun, hdeclarations⟩, ⟨nofun, hbridge⟩,
        List.forall_mem_nil _⟩
  | python =>
      simp only [units, List.forall_mem_cons, lines_unit]
      exact ⟨⟨nofun, hdeclarations⟩, ⟨nofun, hbridge⟩, List.forall_mem_nil _⟩

end TargetId

/-! ## Sinks count lines -/

/-- A unit that is taken is reported under its name, with the number of its lines. -/
def Sink.Counts {σ : Type} (sink : Sink σ) : Prop :=
  ∀ u state summary, (sink.close u state).result = .ok summary →
    summary.name = u.name ∧ summary.lines = u.lines.length

theorem Sink.counts_memory : memory.Counts := by
  rintro u shelf summary ⟨⟩
  exact ⟨rfl, rfl⟩

theorem Sink.counts_directory (config : Config) (postProcess : Bool) (root : String) :
    (directory config postProcess root).Counts := by
  intro u m summary h
  rcases hwrite : m.files.writeIn root u.name u.text with ⟨_ | fault, files⟩
  · simp only [directory, hwrite, Except.ok.injEq] at h
    subst h
    exact ⟨rfl, rfl⟩
  · simp only [directory, hwrite] at h
    cases h

namespace Emission

variable {σ : Type} {sink : Sink σ}

theorem counted_ofStages (hsink : sink.Counts) {stages : List Stage} {state : σ}
    (hlines : ∀ stage ∈ stages, stage.unit.lines ≠ [] ∧ ∀ line ∈ stage.unit.lines, OneLine line)
    (habort : (ofStages sink stages state).1.abort = none) :
    List.Forall₂ OutputUnit.Counted (stages.map Stage.unit)
      (ofStages sink stages state).1.units := by
  induction stages generalizing state with
  | nil => exact .nil
  | cons stage stages ih =>
      obtain ⟨⟨hne, hline⟩, hlines⟩ := List.forall_mem_cons.1 hlines
      cases hresult : (sink.close stage.unit state).result with
      | error fault => simp [ofStages, hresult] at habort
      | ok summary =>
          simp only [ofStages, hresult] at habort ⊢
          obtain ⟨hname, hcount⟩ := hsink _ _ _ hresult
          exact .cons (OutputUnit.counted_of_oneLine hname hcount hne hline) (ih hlines habort)

/-- A target that is not given up has gone through stages, and written their units with the lines
that are counted. -/
theorem counted_of_abort (hsink : sink.Counts) (id : TargetId) {s : Spec}
    {bridgeModule : Option String} (hnames : s.EveryName OneLine)
    (hmodule : ∀ module ∈ bridgeModule, OneLine module) {state : σ}
    (habort : (ofSpec (.ofId id) s bridgeModule sink state).1.abort = none) : ∃ stages,
      (Target.ofId id).stages s (bridgeModule.getD (Target.ofId id).bridgeModule) = .ok stages ∧
      stages.map Stage.unit = id.units s bridgeModule ∧
      List.Forall₂ OutputUnit.Counted (stages.map Stage.unit)
        (ofSpec (.ofId id) s bridgeModule sink state).1.units := by
  obtain ⟨stages, hstages, hunits, -⟩ :=
    Target.exists_stages id (valuesFit_of_abort habort) bridgeModule
  refine ⟨stages, hstages, hunits, ?_⟩
  rw [ofSpec_of_stages hstages] at habort ⊢
  refine counted_ofStages hsink (fun stage hstage => ?_) habort
  exact id.oneLine_units hnames hmodule _ (hunits ▸ List.mem_map_of_mem hstage)

/-- Every unit is in memory under its name. -/
theorem get?_of_mem_units {id : TargetId} {s : Spec} {bridgeModule : Option String}
    (h : s.ValuesFit) (shelf : Shelf) : ∀ u ∈ id.units s bridgeModule,
      (ofSpec (.ofId id) s bridgeModule Sink.memory shelf).2.get? u.name = some u := by
  simp only [get?_ofSpec h]
  cases id with
  | typescript =>
      simp only [TargetId.units, List.forall_mem_cons]
      exact ⟨rfl, rfl, rfl, List.forall_mem_nil _⟩
  | python =>
      simp only [TargetId.units, List.forall_mem_cons]
      exact ⟨rfl, rfl, List.forall_mem_nil _⟩

/-- If no name of a spec has a line feed in it, and the bridge module has none, then a target that
is not given up reports the true number of lines of every unit: no line holds a line feed, each one
is ended by one, and cut at them the text is the lines again. Memory keeps these very units; the
summaries of a directory count the same. -/
theorem ofSpec_counted (id : TargetId) {s : Spec} {bridgeModule : Option String}
    (hnames : s.EveryName OneLine) (hmodule : ∀ module ∈ bridgeModule, OneLine module) :
    (∀ shelf : Shelf,
      let run := ofSpec (.ofId id) s bridgeModule Sink.memory shelf
      run.1.abort = none → ∃ stages,
        (Target.ofId id).stages s (bridgeModule.getD (Target.ofId id).bridgeModule) = .ok stages ∧
        List.Forall₂ OutputUnit.Counted (stages.map Stage.unit) run.1.units ∧
        ∀ stage ∈ stages, run.2.get? stage.unit.name = some stage.unit) ∧
    ∀ (config : Config) (postProcess : Bool) (root : String) (m : Machine),
      let run := ofSpec (.ofId id) s bridgeModule (Sink.directory config postProcess root) m
      run.1.abort = none → ∃ stages,
        (Target.ofId id).stages s (bridgeModule.getD (Target.ofId id).bridgeModule) = .ok stages ∧
        List.Forall₂ OutputUnit.Counted (stages.map Stage.unit) run.1.units := by
  constructor
  · intro shelf run habort
    obtain ⟨stages, hstages, hunits, hcounted⟩ :=
      counted_of_abort Sink.counts_memory id hnames hmodule habort
    refine ⟨stages, hstages, hcounted, fun stage hstage => ?_⟩
    exact get?_of_mem_units (valuesFit_of_abort habort) shelf _
      (hunits ▸ List.mem_map_of_mem hstage)
  · intro config postProcess root m run habort
    obtain ⟨stages, hstages, -, hcounted⟩ :=
      counted_of_abort (Sink.counts_directory config postProcess root) id hnames hmodule habort
    exact ⟨stages, hstages, hcounted⟩

/-- A spec with a class and an interface, and without enumerations. -/
theorem ofSpec_counted_sparseSpec :
    let run := ofSpec (.ofId .typescript) Python.sparseSpec "reader.node" Sink.memory ∅
    Python.sparseSpec.EveryName OneLine ∧ run.1.abort = none ∧
    ∃ units : List OutputUnit, (∀ u ∈ units, run.2.get? u.name = some u) ∧
      List.Forall₂ (fun u count => (u.name, u.text.toList.count '\n') = count ∧
          pieces "\n" u.text = u.lines ++ [""]) units
        [("enums.ts", 2), ("native.d.ts", 12), ("native.js", 3)] := by
  intro run
  have hnames : Python.sparseSpec.EveryName OneLine :=
    Python.everyName_sparseSpec.mono fun _ hname => hname.isWord.noLineFeed
  have habort : run.1.abort = none := by decide +kernel
  have hreported : run.1.units.map (fun summary => (summary.name, summary.lines)) =
      [("enums.ts", 2), ("native.d.ts", 12), ("native.js", 3)] := by
    decide +kernel
  obtain ⟨stages, -, hcounted, hkept⟩ :=
    (ofSpec_counted .typescript hnames (by decide)).1 ∅ habort
  refine ⟨hnames, habort, stages.map Stage.unit, List.forall_mem_map.2 hkept, ?_⟩
  rw [← hreported, List.forall₂_map_right_iff]
  exact hcounted.imp fun u summary h => ⟨by rw [h.name, h.count], h.pieces⟩

end Emission

end Bindery
