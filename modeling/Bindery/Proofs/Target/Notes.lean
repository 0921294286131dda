import Bindery.Proofs.Resolution.Misses
import Bindery.Proofs.Target.Literal
import Bindery.Proofs.Target.Python
import Bindery.Proofs.Text.Inside

/-!
# Notes on types in Python

Python has no words for modifiers and none for what is unknown. They stand beside a type, as notes.
`value_resolve_eq_foldl`: the text of a type is a bare text with the notes on it, one around the
other. `standsIn_of_written`: the text of every type that is written with it stands in there.
-/

namespace Bindery.Python

open Text

/-! ## Notes -/

def annotated (text note : String) : String :=
  "Annotated[" ++ text ++ ", " ++ stringLiteral note ++ "]"

/-- What stands for a node that has no text: its name, and the arguments of a template. -/
def unknown? (s : Spec) : TypeExpr → Option String
  | .name path _ _ =>
    if joinPath path ∈ s.declaredNames ∨ joinPath path ∈ mapping.vocabulary.primitives then none
    else some (joinPath path)
  | .template path arguments _ =>
    if mapping.vocabulary.templates.lookup (joinPath path) = some arguments.length then none
    else some (Resolver.templateDetail (joinPath path) arguments)
  | .function .. => none

/-- The modifiers of a node besides `const`. -/
def handed : TypeExpr → List String
  | .name _ _ indirection => indirection.names
  | .template .. => []
  | .function _ _ _ isNoExcept => if isNoExcept then ["noexcept"] else []

/-- All modifiers but `const` are one note. -/
def handedNotes (modifiers : List String) : List String :=
  if modifiers.isEmpty then [] else [joined " " modifiers]

def constNotes (isConst : Bool) : List String :=
  if isConst then ["const"] else []

/-- What is noted at a node, from the inside. -/
def notes (s : Spec) (t : TypeExpr) : List String :=
  ((unknown? s t).map ("unknown: " ++ ·)).toList ++ handedNotes (handed t) ++ constNotes t.isConst

variable {s : Spec}

theorem placeholder_eq_annotated (detail : String) :
    mapping.placeholder detail = annotated "Any" ("unknown: " ++ detail) := by
  have hhead : "Annotated[" ++ "Any" ++ ", " = "Annotated[Any, " := by decide
  rw [annotated, hhead]
  rfl

theorem readonly_eq_annotated (text : String) : mapping.readonly text = annotated text "const" := by
  rw [annotated, stringLiteral_of_not_mem (by decide) (by decide)]
  exact String.toList_inj.1 (by simp [mapping])

theorem guarded_eq_foldl (isConst : Bool) (text : String) :
    (resolver s).guarded isConst text = (constNotes isConst).foldl annotated text := by
  cases isConst with
  | false => rfl
  | true => exact readonly_eq_annotated text

theorem annotated_eq_foldl (modifiers : List String) (text : String) :
    (resolver s).annotated text modifiers = (handedNotes modifiers).foldl annotated text := by
  cases modifiers <;> rfl

/-- The text of a name is a word, or the note that it is unknown by. -/
theorem value_resolveName_eq_foldl (s : Spec) (path : List String) (isConst : Bool)
    (indirection : Indirection) : ∃ bare,
      ((unknown? s (.name path isConst indirection)).isSome = true → bare = "Any") ∧
      ((resolver s).resolveName (joinPath path)).value =
        ((unknown? s (.name path isConst indirection)).map ("unknown: " ++ ·)).toList.foldl
          annotated bare := by
  have hdeclares : s.declares (joinPath path) = true ↔ joinPath path ∈ s.declaredNames := by
    simp [Spec.declares]
  rw [unknown?, Resolver.resolveName, spec_resolver, mapping_resolver]
  by_cases hd : s.declares (joinPath path) = true
  · rw [if_pos hd, if_pos (.inl (hdeclares.1 hd))]
    exact ⟨_, fun h => absurd h Bool.false_ne_true, rfl⟩
  · rw [if_neg hd]
    cases hp : mapping.primitive? (joinPath path) with
    | some text =>
        rw [if_pos (.inr (Vocabulary.mem_primitives.2 (by rw [hp]; rfl)))]
        exact ⟨text, fun h => absurd h Bool.false_ne_true, rfl⟩
    | none =>
        rw [if_neg]
        · exact ⟨"Any", fun _ => rfl, placeholder_eq_annotated _⟩
        · rintro (h | h)
          · exact hd (hdeclares.2 h)
          · rw [Vocabulary.mem_primitives, hp] at h
            cases h

/-- The text of a type is a bare text with its notes, which is `Any` if the type is unknown. -/
theorem value_resolve_eq_foldl (s : Spec) (t : TypeExpr) : ∃ bare,
    ((unknown? s t).isSome = true → bare = "Any") ∧
    ((resolver s).resolve t).value = (notes s t).foldl annotated bare := by
  simp only [notes, List.foldl_append]
  cases t with
  | name path isConst indirection =>
      obtain ⟨bare, hunknown, hvalue⟩ := value_resolveName_eq_foldl s path isConst indirection
      refine ⟨bare, hunknown, ?_⟩
      rw [← hvalue, Resolver.resolve, guarded_eq_foldl, annotated_eq_foldl]
      rfl
  | template path arguments isConst =>
      rw [Resolver.value_resolve_template, guarded_eq_foldl, mapping_resolver, unknown?,
        Vocabulary.lookup_templates]
      cases mapping.template? (joinPath path) with
      | none =>
          exact ⟨"Any", fun _ => rfl, congrArg (List.foldl _ · _) (placeholder_eq_annotated _)⟩
      | some rule =>
          by_cases ha : arguments.length = rule.arity
          · have hlookup : (some rule).map TemplateRule.arity = some arguments.length := by
              rw [ha, Option.map_some]
            simp only [if_pos hlookup, if_pos ha]
            exact ⟨_, fun h => absurd h Bool.false_ne_true, rfl⟩
          · have hlookup : (some rule).map TemplateRule.arity ≠ some arguments.length := by
              rw [Option.map_some, ne_eq, Option.some.injEq]
              exact Ne.symm ha
            simp only [if_neg hlookup, if_neg ha]
            exact ⟨"Any", fun _ => rfl, congrArg (List.foldl _ · _) (placeholder_eq_annotated _)⟩
  | function arguments result isConst isNoExcept =>
      rw [Resolver.resolve, guarded_eq_foldl, annotated_eq_foldl]
      exact ⟨_, fun h => absurd h Bool.false_ne_true, rfl⟩

/-! ## Types in the text of a type -/

theorem standsIn_annotated (text note : String) : StandsIn text (annotated text note) :=
  ((((StandsIn.refl text).prepend _).append _).append _).append _

theorem standsIn_foldl_annotated (text : String) (notes : List String) :
    StandsIn text (notes.foldl annotated text) := by
  induction notes generalizing text with
  | nil => exact .refl text
  | cons note notes ih => exact (standsIn_annotated text note).trans (ih _)

/-- Templates of one argument show its text. -/
theorem standsIn_render {fullName : String} {rule : TemplateRule}
    (h : mapping.template? fullName = some rule) :
    rule.arity = 1 ∧ ∀ text, StandsIn text (rule.render [text]) := by
  have hmem := mem_of_lookup_eq_some h
  simp only [mapping, Mapping.unary, List.mem_cons, Prod.mk.injEq, List.not_mem_nil,
    or_false] at hmem
  rcases hmem with ⟨-, rfl⟩ | ⟨-, rfl⟩ | ⟨-, rfl⟩
  · exact ⟨rfl, fun text => .between "list[" text "]"⟩
  · exact ⟨rfl, fun text => (StandsIn.refl text).append _⟩
  · exact ⟨rfl, StandsIn.refl⟩

theorem standsIn_function_argument {arguments : List (String × String)} {a : String × String}
    (h : a ∈ arguments) (result : String) : StandsIn a.2 (mapping.function arguments result) :=
  ((((standsIn_joined (List.mem_map_of_mem h) ", ").prepend _).append _).append _).append _

theorem standsIn_function_result (arguments : List (String × String)) (result : String) :
    StandsIn result (mapping.function arguments result) :=
  ((StandsIn.refl result).prepend _).append _

/-- A type that is written with another has its text there. -/
theorem standsIn_of_written {t u : TypeExpr} (h : TypeExpr.Written mapping.vocabulary u t) :
    StandsIn ((resolver s).resolve u).value ((resolver s).resolve t).value := by
  induction h with
  | self => exact .refl _
  | @templateArgument path arguments isConst a hlookup ha _ ih =>
      rw [Vocabulary.lookup_templates, Option.map_eq_some_iff] at hlookup
      obtain ⟨rule, hrule, hlength⟩ := hlookup
      obtain ⟨harity, hrender⟩ := standsIn_render hrule
      obtain ⟨b, rfl⟩ := List.length_eq_one_iff.1 (hlength.symm.trans harity)
      obtain rfl := List.mem_singleton.1 ha
      rw [Resolver.value_resolve_template, mapping_resolver, hrule, guarded_eq_foldl]
      simp only [if_pos hlength.symm]
      exact (ih.trans (hrender _)).trans (standsIn_foldl_annotated _ _)
  | @functionArgument arguments result isConst isNoExcept a ha _ ih =>
      rw [Resolver.resolve, guarded_eq_foldl, annotated_eq_foldl, Resolver.value_resolveArguments]
      have hinput := standsIn_function_argument (List.mem_map_of_mem
        (f := fun a => (mapping.naming.apply a.1, ((resolver s).resolve a.2).value)) ha)
        ((resolver s).resolve result).value
      exact ((ih.trans hinput).trans (standsIn_foldl_annotated _ _)).trans
        (standsIn_foldl_annotated _ _)
  | functionResult _ ih =>
      rw [Resolver.resolve, guarded_eq_foldl, annotated_eq_foldl]
      exact ((ih.trans (standsIn_function_result _ _)).trans (standsIn_foldl_annotated _ _)).trans
        (standsIn_foldl_annotated _ _)

/-! ## Types in lines -/

theorem exists_line_of_mem_shapes_member {member : Member} {x : Shape} (h : x ∈ member.shapes) :
    ∃ line ∈ writeMember member, StandsIn (mapping.print x) line := by
  cases member with
  | field name isOptional type =>
      obtain rfl := List.mem_singleton.1 h
      refine ⟨_, List.mem_singleton_self _, ?_⟩
      cases isOptional with
      | false => exact (StandsIn.refl _).prepend _
      | true => exact (StandsIn.between "NotRequired[" _ "]").prepend _
  | method name isStatic isOverload parameters result =>
      refine ⟨_, List.mem_append_right _ (List.mem_singleton_self _), ?_⟩
      rcases List.mem_append.1 h with h | h
      · obtain ⟨a, ha, rfl⟩ := List.mem_map.1 h
        have hparameter : escapeKeyword (mapping.naming.apply a.1) ++ ": " ++ mapping.print a.2 ∈
            (mapping.printArguments parameters).map fun p => escapeKeyword p.1 ++ ": " ++ p.2 := by
          rw [Mapping.printArguments_eq_map, List.map_map]
          exact List.mem_map.2 ⟨a, ha, rfl⟩
        have hjoined := standsIn_joined
          (List.mem_append_right (if isStatic then [] else ["self"]) hparameter) ", "
        have htype := ((StandsIn.refl (mapping.print a.2)).prepend _).trans hjoined
        exact (((htype.prepend _).append _).append _).append _
      · obtain rfl := List.mem_singleton.1 h
        exact ((StandsIn.refl _).prepend _).append _

theorem mem_suite {line : String} {lines : List String} (h : line ∈ lines) :
    line ∈ suite lines := by
  rw [suite, if_neg (by simpa using List.ne_nil_of_mem h)]
  exact h

theorem exists_line_of_mem_shapes_members {name bases : String} {members : List Member} {x : Shape}
    (h : x ∈ members.flatMap Member.shapes) :
    ∃ line ∈ writeClass name bases members, StandsIn (mapping.print x) line := by
  obtain ⟨member, hmember, hx⟩ := List.mem_flatMap.1 h
  obtain ⟨line, hline, hstands⟩ := exists_line_of_mem_shapes_member hx
  refine ⟨line, List.mem_append_left _ (List.mem_append_right _ (mem_suite ?_)), hstands⟩
  exact List.mem_flatMap.2 ⟨member, hmember, hline⟩

/-- A statement has a line for each of its types, with the text of the type in it. -/
theorem exists_line_of_mem_shapes {st : Statement} {x : Shape} (h : x ∈ st.shapes) :
    ∃ line ∈ write st, StandsIn (mapping.print x) line := by
  cases st with
  | typeAlias name type =>
      obtain rfl := List.mem_singleton.1 h
      exact ⟨_, List.mem_singleton_self _, (StandsIn.refl _).prepend _⟩
  | record name members => exact exists_line_of_mem_shapes_members h
  | objectClass name members => exact exists_line_of_mem_shapes_members h
  | interface name members => exact exists_line_of_mem_shapes_members h
  | _ => cases h

end Bindery.Python
