import Bindery.Proofs.Generation.References
import Bindery.Proofs.Target.Notes

/-!
# Literals in the stubs

`literals_faithful_iff`: names of constants and notes on types are what their literals stand for,
exactly if they stay on one line. Modifiers always do.
-/

namespace Bindery

namespace Python

open Text

/-! ## Which texts are kept -/

theorem evaluated?_stringLiteral_eq_some_iff {text : String} :
    evaluated? (stringLiteral text) = some text ↔ Unbroken text.toList := by
  rw [evaluated?_stringLiteral_eq]
  by_cases h : Unbroken text.toList
  · rw [if_pos h]
    exact iff_of_true rfl h
  · rw [if_neg h]
    exact iff_of_false (Option.some_ne_none text).symm h

theorem unbroken_unknown {detail : String} :
    Unbroken ("unknown: " ++ detail).toList ↔ Unbroken detail.toList := by
  have hhead : Unbroken "unknown: ".toList := by decide
  rw [String.toList_append, Unbroken, List.forall_mem_append]
  exact and_iff_right hhead

theorem unbroken_of_mem_handedNotes {t : TypeExpr} {note : String}
    (h : note ∈ handedNotes (handed t)) : Unbroken note.toList := by
  cases t with
  | name path isConst indirection =>
      have hall : ∀ p r v : Bool, ∀ note ∈ handedNotes (Indirection.names ⟨p, r, v⟩),
          Unbroken note.toList := by
        decide +kernel
      exact hall _ _ _ note h
  | template path arguments isConst => cases h
  | function arguments result isConst isNoExcept =>
      have hall : ∀ b : Bool, ∀ note ∈ handedNotes (if b then ["noexcept"] else []),
          Unbroken note.toList := by
        decide +kernel
      exact hall _ note h

theorem unbroken_of_mem_constNotes {isConst : Bool} {note : String}
    (h : note ∈ constNotes isConst) : Unbroken note.toList := by
  cases isConst with
  | false => cases h
  | true =>
      obtain rfl := List.mem_singleton.1 h
      decide

/-- Modifiers are always kept, so a node is if what it is unknown by is. -/
theorem notes_kept_iff {s : Spec} {t : TypeExpr} :
    (∀ note ∈ notes s t, evaluated? (stringLiteral note) = some note) ↔
      ∀ detail ∈ unknown? s t, Unbroken detail.toList := by
  simp only [evaluated?_stringLiteral_eq_some_iff, notes, List.forall_mem_append]
  rw [and_iff_left fun _ => unbroken_of_mem_constNotes,
    and_iff_left fun _ => unbroken_of_mem_handedNotes]
  cases unknown? s t with
  | none => exact iff_of_true (List.forall_mem_nil _) fun _ h => absurd h (Option.not_mem_none _)
  | some detail =>
      simp only [Option.mem_some_iff, forall_eq']
      exact List.forall_mem_singleton.trans unbroken_unknown

/-! ## Where literals stand -/

variable {s : Spec}

theorem constantLine_mem {e : Enumeration} (he : e ∈ s.enumerations.values) {names : List String}
    (hmembers : e.members = .plain names) {name : String} (hname : name ∈ names) :
    constantLine (.named name) ∈ (statements s).flatMap write := by
  obtain ⟨entry, hentry, rfl⟩ := List.mem_map.1 he
  have hst := Statement.ofEnumeration_mem_statements hentry
  have hconstant : .named name ∈ entry.2.constants := by
    rw [Enumeration.constants, hmembers]
    exact List.mem_map_of_mem hname
  refine List.mem_flatMap.2 ⟨_, hst, List.mem_append_left _ (List.mem_append_right _ ?_)⟩
  exact mem_suite (List.mem_map_of_mem hconstant)

theorem exists_line_of_written {t x : TypeExpr} (ht : s.HasType t)
    (hx : TypeExpr.Written mapping.vocabulary x t) :
    ∃ line ∈ (statements s).flatMap write, StandsIn ((resolver s).resolve x).value line := by
  have hall : ∀ st ∈ statements s, ∀ x ∈ st.shapes, ∃ line ∈ (statements s).flatMap write,
      StandsIn (mapping.print x) line := by
    intro st hst x hx
    obtain ⟨line, hline, hstands⟩ := exists_line_of_mem_shapes hx
    exact ⟨line, List.mem_flatMap.2 ⟨st, hst, hline⟩, hstands⟩
  obtain ⟨line, hline, hstands⟩ := (forall_shapes_statements.1 hall).1 t ht
  refine ⟨line, hline, (standsIn_of_written hx).trans ?_⟩
  rw [Resolver.value_resolve]
  exact hstands

end Python

namespace TargetReport

open Python Text

/-- The stubs of a spec without violations have a line for each name of a plain constant, and the
text of every type that is written stands in some line, with its notes. A literal is one of a single
line that stands for its text exactly if nothing in the text breaks the line. Among the notes only
what a type is unknown by can do that. -/
theorem literals_faithful_iff (s : Spec) (bridgeModule : Option String) (shelf : Shelf)
    (h : s.validate Python.identifiers = []) :
    (∀ text, evaluated? (stringLiteral text) = if Unbroken text.toList then some text else none) ∧
    ∃ u, (generate (.ofId .python) s bridgeModule Sink.memory shelf).state.get? "native.pyi" =
      some u ∧
      (∀ e ∈ s.enumerations.values, ∀ names, e.members = .plain names → ∀ name ∈ names,
        "    " ++ Python.identifiers.enumMember name ++ " = " ++ stringLiteral name ∈ u.lines) ∧
      ∀ t, s.HasType t → ∀ x, TypeExpr.Written Python.mapping.vocabulary x t →
        (∃ line ∈ u.lines, StandsIn ((Python.resolver s).resolve x).value line) ∧
        (∃ bare, ((unknown? s x).isSome = true → bare = "Any") ∧
          ((Python.resolver s).resolve x).value = (notes s x).foldl annotated bare) ∧
        ((∀ note ∈ notes s x, evaluated? (stringLiteral note) = some note) ↔
          ∀ detail ∈ unknown? s x, Unbroken detail.toList) := by
  obtain ⟨u, hu, hlines⟩ := declarationUnit_lines .python s bridgeModule shelf h
  refine ⟨evaluated?_stringLiteral_eq, u, hu, ?_, fun t ht x hx => ⟨?_, ?_, notes_kept_iff⟩⟩
  · intro e he names hmembers name hname
    rw [hlines]
    exact constantLine_mem he hmembers hname
  · rw [hlines]
    exact exists_line_of_written ht hx
  · exact value_resolve_eq_foldl s x

/-- Names that need escapes. -/
def quotedNames : List String :=
  ["say \"hi\"", "it's \"x\"", "C:\\new\\"]

/-- An unknown name that needs some, too, handed over as a constant pointer. -/
def quotedType : TypeExpr :=
  .name ["\\d'\""] true { pointer := true }

def quotedSpec : Spec where
  enumerations := .ofList [("Quote", .plain quotedNames)]
  aliases := .ofList [("Odd", .applied "std::vector" [quotedType])]

theorem literals_faithful_quotedSpec :
    quotedSpec.validate Python.identifiers = [] ∧
    ∃ u, (generate (.ofId .python) quotedSpec none Sink.memory ∅).state.get? "native.pyi" =
      some u ∧
      (∀ name ∈ quotedNames, evaluated? (stringLiteral name) = some name ∧
        "    " ++ Python.identifiers.enumMember name ++ " = " ++ stringLiteral name ∈ u.lines) ∧
      (∃ line ∈ u.lines, StandsIn (annotated (annotated (annotated "Any" "unknown: \\d'\"")
        "pointer") "const") line) ∧
      ∀ note ∈ ["unknown: \\d'\"", "pointer", "const"],
        evaluated? (stringLiteral note) = some note := by
  have h : quotedSpec.validate Python.identifiers = [] := by decide +kernel
  have hnames : ∀ name ∈ quotedNames, Unbroken name.toList := by decide +kernel
  have hunknown : unknown? quotedSpec quotedType = some "\\d'\"" := by decide +kernel
  have hnotes : notes quotedSpec quotedType = ["unknown: \\d'\"", "pointer", "const"] := by
    decide +kernel
  have htype : quotedSpec.HasType (.applied "std::vector" [quotedType]) :=
    .typeAlias List.mem_cons_self
  have hwritten : TypeExpr.Written Python.mapping.vocabulary quotedType
      (.applied "std::vector" [quotedType]) :=
    .templateArgument (by decide +kernel) List.mem_cons_self .self
  obtain ⟨hliterals, u, hu, hconstants, htypes⟩ := literals_faithful_iff quotedSpec none ∅ h
  obtain ⟨hline, ⟨bare, hbare, hvalue⟩, hkept⟩ := htypes _ htype _ hwritten
  rw [hnotes] at hvalue hkept
  rw [hunknown] at hbare hkept
  rw [hvalue, hbare rfl] at hline
  refine ⟨h, u, hu, fun name hname => ⟨?_, ?_⟩, hline, hkept.2 (by decide +kernel)⟩
  · rw [hliterals, if_pos (hnames name hname)]
  · exact hconstants _ List.mem_cons_self quotedNames rfl name hname

/-- A name with a line feed in it. -/
def brokenName : String := "line\nfeed"

def brokenSpec : Spec where
  enumerations := .ofList [("Break", .plain [brokenName])]
  aliases := .ofList [("Lost", .name [brokenName] false {})]

theorem literals_broken_brokenSpec :
    brokenSpec.validate Python.identifiers = [] ∧
    ∃ u, (generate (.ofId .python) brokenSpec none Sink.memory ∅).state.get? "native.pyi" =
      some u ∧
      "    line\nfeed = \"line\nfeed\"" ∈ u.lines ∧
      stringLiteral brokenName = "\"line\nfeed\"" ∧
      evaluated? (stringLiteral brokenName) = none ∧
      (∃ line ∈ u.lines, StandsIn "Annotated[Any, \"unknown: line\nfeed\"]" line) ∧
      stringLiteral ("unknown: " ++ brokenName) = "\"unknown: line\nfeed\"" ∧
      evaluated? (stringLiteral ("unknown: " ++ brokenName)) = none := by
  have h : brokenSpec.validate Python.identifiers = [] := by decide +kernel
  have hliteral : stringLiteral brokenName = "\"line\nfeed\"" :=
    stringLiteral_of_not_mem (by decide) (by decide)
  have hunknown : stringLiteral ("unknown: " ++ brokenName) = "\"unknown: line\nfeed\"" :=
    stringLiteral_of_not_mem (by decide) (by decide)
  have hconstant : constantLine (.named brokenName) = "    line\nfeed = \"line\nfeed\"" := by
    rw [constantLine, hliteral]
    decide
  have htype : brokenSpec.HasType (.name [brokenName] false {}) := .typeAlias List.mem_cons_self
  have hvalue : ((Python.resolver brokenSpec).resolve (.name [brokenName] false {})).value =
      "Annotated[Any, \"unknown: line\nfeed\"]" := by
    have hplaceholder : ((Python.resolver brokenSpec).resolve (.name [brokenName] false {})).value =
        Python.mapping.placeholder brokenName := rfl
    rw [hplaceholder, placeholder_eq_annotated, annotated, hunknown]
    decide
  obtain ⟨u, hu, hlines⟩ := declarationUnit_lines .python brokenSpec none ∅ h
  refine ⟨h, u, hu, ?_, hliteral, ?_, ?_, hunknown, ?_⟩
  · rw [hlines, ← hconstant]
    exact constantLine_mem List.mem_cons_self rfl List.mem_cons_self
  · rw [evaluated?_stringLiteral_eq, if_neg (by decide)]
  · rw [hlines, ← hvalue]
    exact exists_line_of_written htype .self
  · rw [evaluated?_stringLiteral_eq, if_neg (by decide)]

end TargetReport

end Bindery
