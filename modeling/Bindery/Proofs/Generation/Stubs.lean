import Bindery.Proofs.Generation.Emission
import Bindery.Proofs.Generation.References
import Bindery.Proofs.Target.Blocks

/-!
# Stubs, line by line

`native_pyi_complete`: no class in `native.pyi` is left without a body, and no mark of a method
without its definition.
-/

namespace Bindery

open Naming Text

/-- The text of a unit, cut into lines. It ends in a line feed. -/
theorem OutputUnit.pieces_text {u : OutputUnit} {lines : List String} (hlines : u.lines = lines)
    (hne : lines ≠ []) (h : ∀ line ∈ lines, OneLine line) :
    pieces "\n" u.text = lines ++ [""] := by
  have hchars : lines.map String.toList ≠ [] := by simpa using hne
  have htext : u.text.toList = join ['\n'] (lines.map String.toList ++ [[]]) := by
    rw [join_concat hchars]
    simp [OutputUnit.text, joined, hlines]
  have hpieces : ∀ part ∈ lines.map String.toList ++ [[]], '\n' ∉ part :=
    List.forall_mem_append.2 ⟨List.forall_mem_map.2 h, by decide⟩
  have hsplit := splitOn_join (List.concat_ne_nil _ _) hpieces
  rw [pieces, htext, show "\n".toList = ['\n'] from rfl, hsplit]
  simp

/-! ## Names and texts of statements -/

/-- Whatever is no name and no type in a statement stays on its line. -/
theorem TargetId.oneLine_texts (id : TargetId) (s : Spec) :
    ∀ st ∈ id.statements s, ∀ text ∈ st.texts, OneLine text := by
  refine forall_statements (by decide +kernel) ?_ ?_ ?_ ?_ ?_ ?_ ?_
  · exact List.forall_mem_singleton.2 (by decide)
  · intro entry _ text htext
    obtain ⟨c, hc, hliteral⟩ := List.mem_filterMap.1 htext
    obtain ⟨i, hi⟩ := Enumeration.exists_integer_of_mem_constants hc hliteral
    rw [OneLine, hi]
    exact Json.not_mem_integerText (by decide) (by decide)
  · exact fun _ _ => List.forall_mem_nil _
  · exact fun _ _ => List.forall_mem_nil _
  · exact fun _ _ => List.forall_mem_nil _
  · exact fun _ _ => ⟨List.forall_mem_nil _, fun _ => List.forall_mem_nil _⟩
  · exact fun _ _ => List.forall_mem_nil _

namespace Spec.EveryName

variable {s : Spec} {p : String → Prop} (h : s.EveryName p)

include h

theorem introduced (id : TargetId) : ∀ st ∈ id.statements s, ∀ name ∈ st.introduced, p name := by
  intro st hst name hname
  have hmem : name ∈ s.introducedNames := by
    rw [← id.introduced_statements s]
    exact List.mem_flatMap_of_mem hst hname
  exact h.entities name (s.introducedNames_perm.mem_iff.1 hmem)

theorem classes : ∀ name ∈ s.classes.keys, p name := by
  refine List.forall_mem_map.2 fun entry he => ?_
  have hclass : .ofClass s (Target.ofId .python).mapping entry ∈ TargetId.python.statements s :=
    Statement.objectClass_mem_statements_iff.2 ⟨entry, he, rfl⟩
  exact h.introduced .python _ hclass entry.1 (List.mem_singleton_self _)

theorem memberNames (id : TargetId) : ∀ st ∈ id.statements s, ∀ name ∈ st.memberNames, p name := by
  refine TargetId.forall_statements ?_ ?_ h.ofEnumeration ?_ ?_ h.ofRecord ?_ h.ofInterface
  · simp [Statement.fixed, Statement.memberNames]
  · exact List.forall_mem_nil _
  · exact fun _ _ => List.forall_mem_nil _
  · exact fun _ _ => List.forall_mem_nil _
  · exact fun entry he => ⟨h.ofClass entry he, fun _ => List.forall_mem_nil _⟩

end Spec.EveryName

/-- Identifiers have no gaps. -/
theorem Naming.IsIdentifier.isWord {name : String} (h : IsIdentifier name) : IsWord name where
  nonempty := by
    rintro rfl
    exact absurd h.start (by decide)
  noBlank hmem := absurd (h.chars ' ' hmem) (by decide)
  noLineFeed hmem := absurd (h.chars '\n' hmem) (by decide)

/-! ## Lines without line feeds -/

namespace TargetId

theorem addsNoLine_mapping (id : TargetId) : (Target.ofId id).mapping.AddsNoLine := by
  cases id with
  | typescript => exact TypeScript.addsNoLine_mapping
  | python => exact Python.addsNoLine_mapping

theorem oneLine_write (id : TargetId) {st : Statement}
    (hintroduced : ∀ name ∈ st.introduced, OneLine name)
    (hnames : ∀ name ∈ st.memberNames, OneLine name) (htexts : ∀ text ∈ st.texts, OneLine text)
    (hshapes : ∀ x ∈ st.shapes, OneLine ((Target.ofId id).mapping.print x)) :
    ∀ line ∈ id.write st, OneLine line := by
  cases id with
  | typescript => exact TypeScript.oneLine_write hintroduced hnames htexts hshapes
  | python => exact Python.oneLine_write hintroduced hnames htexts hshapes

theorem oneLine_lines (id : TargetId) {s : Spec} (h : s.EveryName OneLine) :
    ∀ line ∈ (id.statements s).flatMap id.write, OneLine line := by
  have hshapes : ∀ st ∈ id.statements s, ∀ x ∈ st.shapes,
      OneLine ((Target.ofId id).mapping.print x) := by
    refine forall_shapes_statements.2 ⟨fun t ht => ?_, fun entry he _ => ?_⟩
    · exact TypeExpr.oneLine_print id.addsNoLine_mapping s (h.types t ht)
    · exact id.addsNoLine_mapping.declared _ (h.classes _ (List.mem_map_of_mem he))
  refine List.forall_mem_flatMap.2 fun st hst => ?_
  exact id.oneLine_write (h.introduced id st hst) (h.memberNames id st hst)
    (id.oneLine_texts s st hst) (hshapes st hst)

end TargetId

namespace Python

variable {s : Spec}

theorem complete_lines (h : s.EveryName IsWord) : Complete ((statements s).flatMap write) :=
  complete_flatMap fun st hst =>
    complete_write (h.introduced .python st hst) (h.memberNames .python st hst)

/-! ## The text of the stubs -/

open Emission

/-- The lines of `native.pyi` are those of the statements; the text ends in a line feed. -/
theorem pieces_native_pyi {bridgeModule : Option String} {shelf : Shelf}
    (hnames : s.EveryName OneLine)
    (habort : (ofSpec (.ofId .python) s bridgeModule Sink.memory shelf).1.abort = none) :
    ∃ u, (ofSpec (.ofId .python) s bridgeModule Sink.memory shelf).2.get? "native.pyi" = some u ∧
      pieces "\n" u.text = (statements s).flatMap write ++ [""] := by
  have hunit : (ofSpec (.ofId .python) s bridgeModule Sink.memory shelf).2.get? "native.pyi" =
      some (TargetId.python.unit "native.pyi" ((statements s).flatMap write)) :=
    (get?_ofSpec (valuesFit_of_abort habort) shelf "native.pyi").trans (if_pos rfl)
  have hne : (statements s).flatMap write ≠ [] := by
    simp [statements]
  exact ⟨_, hunit, OutputUnit.pieces_text (TargetId.lines_unit _ _ _) hne
    (TargetId.python.oneLine_lines hnames)⟩

/-- No block of `native.pyi` is empty, and no mark stands alone. Each line that opens a class is
followed by lines of the class and then by an empty one; `pass` is among them exactly if there is
no member. At most one more mark stands between a mark and its definition. -/
theorem native_pyi_complete {bridgeModule : Option String} {shelf : Shelf}
    (hnames : s.EveryName IsWord)
    (habort : (ofSpec (.ofId .python) s bridgeModule Sink.memory shelf).1.abort = none) :
    ∃ u, (ofSpec (.ofId .python) s bridgeModule Sink.memory shelf).2.get? "native.pyi" = some u ∧
      let lines := pieces "\n" u.text
      (∀ head rest, head :: rest <:+ lines → OpensBlock head →
        ∃ body behind, rest = body ++ "" :: behind ∧ body ≠ [] ∧
          (∀ line ∈ body, indentation line = 4) ∧
          ((∃ line ∈ body, IsPass line) ↔ ∀ line ∈ body, ¬ IsMemberLine line)) ∧
      ∀ mark rest, mark :: rest <:+ lines → IsMark mark →
        ∃ marks definition behind, rest = marks ++ definition :: behind ∧ marks.length ≤ 1 ∧
          (∀ other ∈ marks, IsMark other) ∧ IsDefinition definition ∧
          indentation definition = indentation mark := by
  obtain ⟨u, hu, hlines⟩ :=
    pieces_native_pyi (hnames.mono fun _ hname => hname.noLineFeed) habort
  refine ⟨u, hu, ?_⟩
  rw [hlines]
  have hend : Complete [""] := complete_singleton (by decide) (by decide)
  have hcomplete := (complete_lines hnames).append hend
  refine ⟨fun head rest hsuffix hopens => ?_, fun mark rest hsuffix hmark => ?_⟩
  · obtain ⟨body, behind, hrest, hbody⟩ := (hcomplete head rest hsuffix).block hopens
    exact ⟨body, behind, hrest, hbody.nonempty, hbody.indented, hbody.pass_iff⟩
  · exact (hcomplete mark rest hsuffix).definition hmark

/-- A method with two overloads, and one without any. -/
def sparseSpec : Spec where
  classes := .ofList [("Reader", { staticMethods := .ofList [("open", [
    { arguments := [("path", .named "std::string")], result := .named "Reader" },
    { result := .named "Reader" }])] })]
  interfaces := .ofList [("Listener", { methods := .ofList [("notify", [])] })]

theorem everyName_sparseSpec : sparseSpec.EveryName IsIdentifier where
  entities := by decide +kernel
  constants := by decide
  fields := by decide
  properties := by decide
  methods := by decide
  staticMethods := by decide +kernel
  interfaceMethods := by decide +kernel
  arguments := Spec.forall_hasSignature_iff.2 (by decide +kernel)
  types := Spec.forall_hasType_iff_entities.2 (by decide +kernel)

theorem native_pyi_complete_sparseSpec :
    sparseSpec.EveryName IsIdentifier ∧
    (ofSpec (.ofId .python) sparseSpec none Sink.memory ∅).1.abort = none ∧
    ∃ u, (ofSpec (.ofId .python) sparseSpec none Sink.memory ∅).2.get? "native.pyi" = some u ∧
      (∃ rest, "class Listener(Protocol):" :: rest <:+ pieces "\n" u.text ∧
        ∃ body behind, rest = body ++ "" :: behind ∧ body ≠ []) ∧
      ∃ rest, "    @overload" :: rest <:+ pieces "\n" u.text ∧
        ∃ definition ∈ rest, IsDefinition definition := by
  have habort : (ofSpec (.ofId .python) sparseSpec none Sink.memory ∅).1.abort = none := by
    decide +kernel
  have hnames := everyName_sparseSpec.mono fun _ hname => hname.isWord
  obtain ⟨u, hu, hblock, hmark⟩ := native_pyi_complete hnames habort
  obtain ⟨u', hu', hlines⟩ := pieces_native_pyi (hnames.mono fun _ hname => hname.noLineFeed) habort
  obtain rfl := Option.some.inj (hu.symm.trans hu')
  have hsuffix {line : String} (hline : line ∈ (statements sparseSpec).flatMap write) :
      ∃ rest, line :: rest <:+ pieces "\n" u.text := by
    obtain ⟨before, rest, heq⟩ := List.append_of_mem hline
    exact ⟨rest ++ [""], before, by rw [hlines, heq]; simp⟩
  obtain ⟨rest, hrest⟩ := @hsuffix "class Listener(Protocol):" (by decide +kernel)
  obtain ⟨body, behind, hbody, hne, -⟩ := hblock _ rest hrest (by decide)
  obtain ⟨later, hlater⟩ := @hsuffix "    @overload" (by decide +kernel)
  obtain ⟨marks, definition, below, hdefinitions, -, -, hdefinition, -⟩ :=
    hmark _ later hlater (by decide)
  have hmem : definition ∈ later := hdefinitions ▸ List.mem_append_right marks List.mem_cons_self
  exact ⟨everyName_sparseSpec, habort, u, hu, ⟨rest, hrest, body, behind, hbody, hne⟩,
    later, hlater, definition, hmem, hdefinition⟩

end Python

end Bindery
