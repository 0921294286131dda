import Bindery.Proofs.Generation.References
import Bindery.Proofs.Target.Introductions

/-!
# The identifiers that a declaration unit introduces

`declarations_linked`: the declaration unit of a spec without violations introduces every declared
name once, under an identifier of its own, besides words of the language, and its types refer to
nothing else.
-/

namespace Bindery

namespace TargetId

def IntroducesOn : TargetId → String → List String → Prop
  | .typescript => TypeScript.IntroducesOn
  | .python => Python.IntroducesOn

def identifiersOn : TargetId → String → List String
  | .typescript => TypeScript.identifiersOn
  | .python => Python.identifiersOn

/-- The words that the declaration unit takes from modules of the language. -/
def importedWords : TargetId → List String
  | .typescript => []
  | .python => ["Enum", "IntFlag", "Annotated", "Any", "Callable", "NoReturn", "NotRequired",
      "Protocol", "TypeAlias", "TypedDict", "final", "overload"]

variable (id : TargetId) (s : Spec)

theorem isToken_importedWords : ∀ word ∈ id.importedWords, IsToken word := by
  cases id <;> decide +kernel

theorem modules_noBlank : ∀ st ∈ id.statements s, ∀ module ∈ st.modules, ' ' ∉ module.toList := by
  refine forall_statements (by decide +kernel) ?_ ?_ ?_ ?_ ?_ ?_ ?_
  · exact List.forall_mem_singleton.2 (by decide)
  · exact fun _ _ => List.forall_mem_nil _
  · exact fun _ _ => List.forall_mem_nil _
  · exact fun _ _ => List.forall_mem_nil _
  · exact fun _ _ => List.forall_mem_nil _
  · exact fun _ _ => ⟨List.forall_mem_nil _, fun _ => List.forall_mem_nil _⟩
  · exact fun _ _ => List.forall_mem_nil _

theorem introduces_lines : Introduces id.IntroducesOn ((id.statements s).flatMap id.write)
    ((id.statements s).flatMap Statement.identifiers) := by
  refine .flatMap fun st hst => ?_
  cases id with
  | typescript => exact TypeScript.introduces_write st
  | python => exact Python.introduces_write st (TargetId.modules_noBlank .python s st hst)

theorem identifiersOn_of_introducesOn {line : String} {names : List String}
    (h : id.IntroducesOn line names) (hnames : ∀ name ∈ names, IsToken name) :
    id.identifiersOn line = names := by
  cases id with
  | typescript => exact TypeScript.identifiersOn_of_introducesOn h hnames
  | python => exact Python.identifiersOn_of_introducesOn h hnames

theorem takenWords_statements :
    (id.statements s).flatMap Statement.takenWords = id.importedWords := by
  have hentities {α : Type} (m : OrderedMap α) (write : String × α → Statement)
      (h : ∀ entry, (write entry).takenWords = []) :
      (m.entries.map write).flatMap Statement.takenWords = [] := by
    simp [List.flatMap_map, h]
  have haliases m := hentities s.aliases (.ofAlias s m) fun _ => rfl
  have hrecords m := hentities s.records (.ofRecord s m) fun _ => rfl
  have hinterfaces m := hentities s.interfaces (.ofInterface s m) fun _ => rfl
  have henumerations := hentities s.enumerations .ofEnumeration fun _ => rfl
  have hopaque : (s.opaqueTypes.map Statement.opaqueType).flatMap Statement.takenWords = [] := by
    simp [List.flatMap_map, Statement.takenWords]
  cases id with
  | typescript =>
      have himports : (if s.enumerations.isEmpty then []
          else [.entities "./enums" s.enumerations.keys]).flatMap Statement.takenWords = [] := by
        split <;> rfl
      have hclass (entry : String × Class) : (.ofClass s TypeScript.mapping entry ::
          Statement.ofSharedName entry).flatMap Statement.takenWords = [] := by
        cases h : entry.2.sharedName <;>
          simp [Statement.ofClass, Statement.ofSharedName, h, Statement.takenWords]
      simp only [statements, TypeScript.statements, List.flatMap_append, List.flatMap_assoc,
        himports, hopaque, haliases, hrecords, hclass, hinterfaces]
      simp [Statement.takenWords, importedWords]
  | python =>
      have hclass (entry : String × Class) : (.ofClass s Python.mapping entry ::
          (Statement.ofSharedName entry).flatMap fun second => [second, .blank]).flatMap
            Statement.takenWords = [] := by
        cases h : entry.2.sharedName <;>
          simp [Statement.ofClass, Statement.ofSharedName, h, Statement.takenWords]
      simp only [statements, Python.statements, List.flatMap_append, List.flatMap_assoc,
        henumerations, hopaque, haliases, hrecords, hclass, hinterfaces]
      simp [Statement.takenWords, importedWords]

/-- The identifiers in all statements are the words of the language, and one for each declared
name. -/
theorem identifiers_perm : ((id.statements s).flatMap Statement.identifiers).Perm
    (id.importedWords ++ s.declaredNames.map entityIdentifier) := by
  have hparts := List.flatMap_append_perm (id.statements s) Statement.takenWords
    fun st => st.introduced.map entityIdentifier
  rw [id.takenWords_statements, ← List.map_flatMap, id.introduced_statements] at hparts
  exact hparts.symm.trans ((s.introducedNames_perm.map entityIdentifier).append_left _)

end TargetId

/-- The declaration unit of a spec without violations introduces the declared names, each once and
each under an identifier of its own, besides the words that it takes from modules of the language.
If no identifier holds a character that ends one, these are read off the lines. Types stand in the
unit as their shapes. Whatever a type refers to is declared, and no other entity goes by its
identifier. -/
theorem TargetReport.declarations_linked (id : TargetId) (s : Spec) (bridgeModule : Option String)
    (shelf : Shelf) (h : s.validate (Target.ofId id).identifiers = []) :
    let mapping := (Target.ofId id).mapping
    let statements := id.statements s
    let declared := s.declaredNames.map entityIdentifier
    (∃ u introduced,
      (generate (.ofId id) s bridgeModule Sink.memory shelf).state.get? id.declarationUnit =
        some u ∧
      u.lines = statements.flatMap id.write ∧
      Introduces id.IntroducesOn u.lines introduced ∧
      introduced.Perm (id.importedWords ++ declared) ∧
      ((∀ name ∈ declared, IsToken name) → u.lines.flatMap id.identifiersOn = introduced) ∧
      ((∀ name ∈ declared, name ∉ id.importedWords) → introduced.Nodup)) ∧
    declared.Nodup ∧
    (∀ t, s.HasType t → (∃ st ∈ statements, t.shape s mapping ∈ st.shapes) ∧
      ∀ location, (Resolver.resolve { spec := s, mapping, location } t).value =
        mapping.print (t.shape s mapping)) ∧
    ∀ st ∈ statements, ∀ x ∈ st.shapes, ∀ name ∈ x.references,
      mapping.print (.declared name) = entityIdentifier name ∧ name ∈ s.declaredNames ∧
      ∀ other ∈ s.declaredNames, entityIdentifier other = entityIdentifier name → other = name := by
  intro mapping statements declared
  have hsound := (s.validate_eq_nil_iff _).1 h
  obtain ⟨u, hunit, hlines⟩ := declarationUnit_lines id s bridgeModule shelf h
  have hintroduces := id.introduces_lines s
  have hperm := id.identifiers_perm s
  have hnodup : declared.Nodup :=
    List.Nodup.map_on (fun x hx y hy => hsound.entitiesApart hx hy) hsound.declaredOnce
  have hshapes : ∀ st ∈ statements, ∀ x ∈ st.shapes, ∃ st ∈ statements, x ∈ st.shapes :=
    fun st hst x hx => ⟨st, hst, hx⟩
  refine ⟨⟨u, _, hunit, hlines, hlines ▸ hintroduces, hperm, fun htokens => ?_, fun hapart => ?_⟩,
    hnodup, fun t ht => ⟨?_, fun location => ?_⟩, fun st hst x hx name hname => ?_⟩
  · have hall : ∀ name ∈ id.importedWords ++ declared, IsToken name :=
      List.forall_mem_append.2 ⟨id.isToken_importedWords, htokens⟩
    rw [hlines]
    exact hintroduces.read id.identifiersOn_of_introducesOn fun name hname =>
      hall name (hperm.subset hname)
  · have hwords : id.importedWords.Nodup := by cases id <;> decide
    refine hperm.nodup_iff.2 (List.Nodup.append hwords hnodup fun name hword hname => ?_)
    exact hapart name hname hword
  · exact (TargetId.forall_shapes_statements.1 hshapes).1 t ht
  · exact Resolver.value_resolve { spec := s, mapping, location } t
  · have hdeclared := id.references_subset s st hst x hx hname
    exact ⟨Target.declared_ofId id name, hdeclared, fun other hother heq =>
      hsound.entitiesApart hother hdeclared heq⟩

/-- A spec with an entity of every kind, some in scopes. -/
def everyKindSpec : Spec where
  records := .ofList [("ns::Point", ⟨.ofList [("owner", { type := .named "SharedSession" })]⟩)]
  classes := .ofList [("Session", {
    sharedName := some "SharedSession"
    properties := .ofList [("mode", .named "Mode")] })]
  interfaces := .ofList [("Listener", ⟨.ofList [("notify", [{
    arguments := [("at", .applied "std::vector" [.name ["ns", "Point"] false {}])]
    result := .named "Callback" }])]⟩)]
  enumerations := .ofList [("Mode", .plain ["on", "off"])]
  aliases := .ofList [("Callback", .function [("handle", .named "Handle")] (.named "void")
    false false)]
  opaqueTypes := ["Handle"]

theorem TargetReport.declarations_linked_everyKindSpec :
    (∀ id, everyKindSpec.validate (Target.ofId id).identifiers = []) ∧
    ∀ id : TargetId, ∃ u introduced,
      (generate (.ofId id) everyKindSpec none Sink.memory ∅).state.get? id.declarationUnit =
        some u ∧
      u.lines.flatMap id.identifiersOn = introduced ∧ introduced.Nodup ∧
      introduced.Perm (id.importedWords ++ ["ns_Point", "Session", "SharedSession", "Listener",
        "Callback", "Mode", "Handle"]) := by
  have h : ∀ id, everyKindSpec.validate (Target.ofId id).identifiers = [] := by
    intro id
    cases id <;> decide +kernel
  refine ⟨h, fun id => ?_⟩
  obtain ⟨⟨u, introduced, hunit, -, -, hperm, hread, hnodup⟩, -⟩ :=
    declarations_linked id everyKindSpec none ∅ (h id)
  have hdeclared : everyKindSpec.declaredNames.map entityIdentifier = ["ns_Point", "Session",
      "SharedSession", "Listener", "Callback", "Mode", "Handle"] := by
    decide +kernel
  rw [hdeclared] at hperm hread hnodup
  refine ⟨u, introduced, hunit, hread (by decide +kernel), hnodup ?_, hperm⟩
  cases id <;> decide

/-- A class may go by a word that the stubs import: no violation says so, and the word is introduced
twice. Imported words that are not declared are introduced anyway. -/
theorem TargetReport.any_introduced_twice :
    let s : Spec := { classes := .ofList [("Any", {})] }
    s.validate (Target.ofId .python).identifiers = [] ∧
    ∃ u, (generate (.ofId .python) s none Sink.memory ∅).state.get? "native.pyi" = some u ∧
      let introduced := u.lines.flatMap Python.identifiersOn
      introduced = ["Enum", "IntFlag", "Annotated", "Any", "Callable", "NoReturn", "NotRequired",
        "Protocol", "TypeAlias", "TypedDict", "final", "overload", "Any"] ∧
      Introduces Python.IntroducesOn u.lines introduced ∧
      ¬ introduced.Perm (s.declaredNames.map entityIdentifier) ∧ ¬ introduced.Nodup := by
  intro s
  have h : s.validate (Target.ofId .python).identifiers = [] := by decide +kernel
  obtain ⟨u, hunit, hlines⟩ := declarationUnit_lines .python s none ∅ h
  have hread : u.lines.flatMap Python.identifiersOn = ["Enum", "IntFlag", "Annotated", "Any",
      "Callable", "NoReturn", "NotRequired", "Protocol", "TypeAlias", "TypedDict", "final",
      "overload", "Any"] := by
    rw [hlines]
    decide +kernel
  have hintroduced : (TargetId.python.statements s).flatMap Statement.identifiers =
      u.lines.flatMap Python.identifiersOn := by
    rw [hread]
    decide +kernel
  refine ⟨h, u, hunit, hread, ?_, ?_, ?_⟩
  · rw [← hintroduced, hlines]
    exact TargetId.introduces_lines .python s
  · rw [hread]
    exact fun hperm => absurd hperm.length_eq (by decide)
  · rw [hread]
    decide

end Bindery
