import Bindery.Proofs.Resolution.Placeholders
import Bindery.Proofs.Target.Expression
import Bindery.Proofs.Target.Legible
import Bindery.Proofs.Target.Notes

/-!
# What the text of a type in Python tells

`erasure_eq_of_hint_eq`: all of a type but what shares it, how its arguments are called and which
names stand for one word. Every modifier is told, and of which node it is.
-/

namespace Bindery.Python

open Naming Text

/-- What is noted of a node of a type. -/
inductive Note where
  | const
  | noexcept
  | indirection (i : Indirection)
  deriving DecidableEq, Repr

def Note.text : Note → String
  | .const => "const"
  | .noexcept => "noexcept"
  | .indirection i => joined " " i.names

/-- What is left of a type in its text. Names are those of the text. -/
inductive Erasure where
  | name (text : String)
  | annotated (inner : Erasure) (note : Note)
  | list (element : Erasure)
  | optional (inner : Erasure)
  | callable (arguments : List Erasure) (result : Erasure)
  deriving Repr

namespace Erasure

/-- The text of a name, two of which tell an optional. -/
def ofName (text : String) : Erasure :=
  if text = "str | None" then .optional (.name "str")
  else if text = "bytes | None" then .optional (.name "bytes")
  else .name text

/-- Of the templates that resolve, one leaves nothing: a shared pointer. -/
def ofTemplate (fullName : String) : List Erasure → Erasure
  | [x] =>
    if fullName = "std::vector" then .list x
    else if fullName = "util::Optional" then .optional x
    else x
  | _ => .name fullName

def noted (isNoted : Bool) (note : Note) (x : Erasure) : Erasure :=
  if isNoted then .annotated x note else x

end Erasure

def nameText (s : Spec) (fullName : String) : String :=
  ((resolver s).resolveName fullName).value

mutual
/-- The erasure of a type that resolves. -/
def erasure (s : Spec) : TypeExpr → Erasure
  | .name path isConst indirection =>
    ((Erasure.ofName (nameText s (joinPath path))).noted (!indirection.names.isEmpty)
      (.indirection indirection)).noted isConst .const
  | .template path arguments isConst =>
    (Erasure.ofTemplate (joinPath path) (erasureAll s arguments)).noted isConst .const
  | .function arguments result isConst isNoExcept =>
    ((Erasure.callable (erasureArguments s arguments) (erasure s result)).noted isNoExcept
      .noexcept).noted isConst .const

def erasureAll (s : Spec) : List TypeExpr → List Erasure
  | [] => []
  | t :: ts => erasure s t :: erasureAll s ts

def erasureArguments (s : Spec) : List (String × TypeExpr) → List Erasure
  | [] => []
  | (_, t) :: rest => erasure s t :: erasureArguments s rest
end

theorem erasureArguments_eq_map (s : Spec) (arguments : List (String × TypeExpr)) :
    erasureArguments s arguments = arguments.map fun a => erasure s a.2 := by
  induction arguments with
  | nil => rfl
  | cons a arguments ih => simp [erasureArguments, ih]

/-! ## The expression of an erasure -/

namespace Erasure

mutual
def expression : Erasure → Expression
  | .name text => .word text
  | .annotated inner note => .subscript "Annotated" [inner.expression, .literal note.text]
  | .list element => .subscript "list" [element.expression]
  | .optional inner => .union inner.expression (.word "None")
  | .callable arguments result =>
    .subscript "Callable" [.list (expressions arguments), result.expression]

def expressions : List Erasure → List Expression
  | [] => []
  | x :: xs => x.expression :: expressions xs
end

theorem expressions_eq_map (xs : List Erasure) : expressions xs = xs.map expression := by
  induction xs with
  | nil => rfl
  | cons x xs ih => simp [expressions, ih]

@[induction_eliminator]
theorem induct {motive : Erasure → Prop}
    (name : ∀ text, motive (.name text))
    (annotated : ∀ inner note, motive inner → motive (.annotated inner note))
    (list : ∀ element, motive element → motive (.list element))
    (optional : ∀ inner, motive inner → motive (.optional inner))
    (callable : ∀ arguments result, (∀ a ∈ arguments, motive a) → motive result →
      motive (.callable arguments result))
    (x : Erasure) : motive x := by
  refine @Erasure.rec motive (fun xs => ∀ a ∈ xs, motive a) name annotated list optional callable
    ?_ ?_ x
  · exact List.forall_mem_nil _
  · intro x xs hx hxs
    exact List.forall_mem_cons.2 ⟨hx, hxs⟩

theorem expressions_inj {xs ys : List Erasure}
    (hxs : ∀ x ∈ xs, ∀ y : Erasure, x.expression = y.expression → x = y)
    (h : expressions xs = expressions ys) : xs = ys := by
  induction xs generalizing ys with
  | nil =>
      cases ys with
      | nil => rfl
      | cons y ys => cases h
  | cons x xs ih =>
      cases ys with
      | nil => cases h
      | cons y ys =>
          obtain ⟨hx, hrest⟩ := List.forall_mem_cons.1 hxs
          obtain ⟨hhead, htail⟩ := List.cons.inj h
          rw [hx y hhead, ih hrest htail]

end Erasure

theorem Note.text_injective {m n : Note} (h : m.text = n.text) : m = n := by
  have hall : ∀ p r v p' r' v' : Bool,
      (indirection ⟨p, r, v⟩).text ≠ const.text ∧ (indirection ⟨p, r, v⟩).text ≠ noexcept.text ∧
        ((indirection ⟨p, r, v⟩).text = (indirection ⟨p', r', v'⟩).text →
          indirection ⟨p, r, v⟩ = indirection ⟨p', r', v'⟩) := by
    decide +kernel
  cases m with
  | indirection i =>
      cases n with
      | const => exact absurd h (hall _ _ _ i.pointer i.pointer i.pointer).1
      | noexcept => exact absurd h (hall _ _ _ i.pointer i.pointer i.pointer).2.1
      | indirection j => exact (hall _ _ _ _ _ _).2.2 h
  | const =>
      cases n with
      | const => rfl
      | noexcept => exact absurd h (by decide)
      | indirection j => exact absurd h.symm (hall _ _ _ j.pointer j.pointer j.pointer).1
  | noexcept =>
      cases n with
      | const => exact absurd h (by decide)
      | noexcept => rfl
      | indirection j => exact absurd h.symm (hall _ _ _ j.pointer j.pointer j.pointer).2.1

/-- No two erasures are read in the same way. -/
theorem Erasure.expression_injective {x y : Erasure} (h : x.expression = y.expression) :
    x = y := by
  induction x generalizing y with
  | name text =>
      cases y with
      | name text' => exact congrArg name (Expression.word.inj h)
      | _ => cases h
  | annotated inner note ih =>
      cases y with
      | annotated inner' note' =>
          simp only [expression, Expression.subscript.injEq, List.cons.injEq,
            Expression.literal.injEq, true_and, and_true] at h
          rw [ih h.1, Note.text_injective h.2]
      | _ => simp [expression] at h
  | list element ih =>
      cases y with
      | list element' =>
          simp only [expression, Expression.subscript.injEq, List.cons.injEq, true_and,
            and_true] at h
          rw [ih h]
      | _ => simp [expression] at h
  | optional inner ih =>
      cases y with
      | optional inner' => rw [ih (Expression.union.inj h).1]
      | _ => cases h
  | callable arguments result ihargs ihresult =>
      cases y with
      | callable arguments' result' =>
          simp only [expression, Expression.subscript.injEq, List.cons.injEq,
            Expression.list.injEq, true_and, and_true] at h
          rw [expressions_inj (fun a ha y => ihargs a ha) h.1, ihresult h.2]
      | _ => simp [expression] at h

/-! ## Reading -/

/-- A text is that of an expression, so Python reads it as this expression. -/
structure Reads (text : String) (x : Expression) : Prop where
  grammatical : x.Grammatical
  chars : x.chars = text.toList

theorem Reads.eq {text : String} {x y : Expression} (hx : Reads text x) (hy : Reads text y) :
    x = y :=
  Expression.eq_of_chars_eq hx.grammatical hy.grammatical (hx.chars.trans hy.chars.symm)

theorem reads_word {text : String} (h : Word text) : Reads text (.word text) where
  grammatical := .word h
  chars := rfl

/-- Notes need no escapes. -/
theorem Note.escapeFree (n : Note) : '"' ∉ n.text.toList ∧ '\\' ∉ n.text.toList := by
  have hall : ∀ p r v : Bool,
      '"' ∉ (indirection ⟨p, r, v⟩).text.toList ∧ '\\' ∉ (indirection ⟨p, r, v⟩).text.toList := by
    decide +kernel
  cases n with
  | const => decide
  | noexcept => decide
  | indirection i => exact hall i.pointer i.reference i.rvalueReference

theorem Reads.annotated {text : String} {x : Expression} (h : Reads text x) (n : Note) :
    Reads ("Annotated[" ++ text ++ ", " ++ stringLiteral n.text ++ "]")
      (.subscript "Annotated" [x, .literal n.text]) where
  grammatical := by
    refine .subscript (by decide) (by simp) (List.forall_mem_cons.2 ⟨h.grammatical, ?_⟩)
    exact List.forall_mem_singleton.2 (.literal n.escapeFree.1 n.escapeFree.2)
  chars := by
    rw [stringLiteral_of_not_mem n.escapeFree.1 n.escapeFree.2]
    simp [Expression.chars, Expression.itemChars, join, h.chars]

theorem Reads.list {text : String} {x : Expression} (h : Reads text x) :
    Reads ("list[" ++ text ++ "]") (.subscript "list" [x]) where
  grammatical := .subscript (by decide) (by simp) (List.forall_mem_singleton.2 h.grammatical)
  chars := by simp [Expression.chars, Expression.itemChars, join, h.chars]

theorem Reads.optional {text : String} {x : Expression} (h : Reads text x) :
    Reads (text ++ " | None") (.union x (.word "None")) where
  grammatical := .union h.grammatical (.word (by decide)) rfl
  chars := by simp [Expression.chars, h.chars]

theorem Reads.callable {α : Type} {xs : List α} {name text : α → String} {x : α → Expression}
    {result : String} {y : Expression} (hxs : ∀ a ∈ xs, Reads (text a) (x a))
    (hresult : Reads result y) :
    Reads (mapping.function (xs.map fun a => (name a, text a)) result)
      (.subscript "Callable" [.list (xs.map x), y]) where
  grammatical := by
    refine .subscript (by decide) (by simp) (List.forall_mem_cons.2 ⟨.list ?_, ?_⟩)
    · exact List.forall_mem_map.2 fun a ha => (hxs a ha).grammatical
    · exact List.forall_mem_singleton.2 hresult.grammatical
  chars := by
    have hitems : Expression.itemChars (xs.map x) =
        (xs.map fun a => (name a, text a)).map fun a => a.2.toList := by
      rw [Expression.itemChars_eq_map, List.map_map, List.map_map]
      exact List.map_congr_left fun a ha => (hxs a ha).chars
    simp [Expression.chars, Expression.itemChars.eq_2, Expression.itemChars.eq_1, join, hitems,
      hresult.chars, mapping, joined, Function.comp_def]

theorem Reads.noted {s : Spec} {text : String} {x : Erasure} (h : Reads text x.expression)
    (i : Indirection) :
    Reads ((resolver s).annotated text i.names)
      (x.noted (!i.names.isEmpty) (.indirection i)).expression := by
  rw [Resolver.annotated, Erasure.noted]
  cases hnames : i.names.isEmpty with
  | true => exact h
  | false => exact h.annotated (.indirection i)

theorem Reads.guarded {s : Spec} {text : String} {x : Erasure} (h : Reads text x.expression)
    (isConst : Bool) :
    Reads ((resolver s).guarded isConst text) (x.noted isConst .const).expression := by
  cases isConst with
  | false => exact h
  | true =>
      rw [Resolver.guarded, if_pos rfl, mapping_resolver, readonly_eq_annotated]
      exact h.annotated .const

theorem Reads.noexcept {s : Spec} {text : String} {x : Erasure} (h : Reads text x.expression)
    (isNoExcept : Bool) :
    Reads ((resolver s).annotated text (if isNoExcept then ["noexcept"] else []))
      (x.noted isNoExcept .noexcept).expression := by
  cases isNoExcept with
  | false => exact h
  | true => exact h.annotated .noexcept

/-! ## Types that can be read -/

/-- Declared names are words of ASCII with scopes. -/
def Legible (s : Spec) (t : TypeExpr) : Prop :=
  t.Legible s fun _ _ => True

/-- The text of a name that resolves: a word, or one of two that tell an optional. -/
theorem nameText_cases {s : Spec} {fullName : String}
    (hpath : s.declares fullName = true → IdentifierPath fullName)
    (hresolves : fullName ∈ s.declaredNames ∨ fullName ∈ mapping.vocabulary.primitives) :
    nameText s fullName = "str | None" ∨ nameText s fullName = "bytes | None" ∨
      Word (nameText s fullName) := by
  rw [nameText, Resolver.resolveName, spec_resolver, mapping_resolver]
  by_cases hdeclared : s.declares fullName = true
  · rw [if_pos hdeclared]
    have hname := hpath hdeclared
    exact .inr (.inr ⟨hname.entityIdentifier_ne_empty,
      hname.forall_entityIdentifier (p := fun c => isMark c = false) (by decide +kernel)⟩)
  · rw [if_neg hdeclared]
    have hall : ∀ entry ∈ mapping.primitives,
        entry.2 = "str | None" ∨ entry.2 = "bytes | None" ∨ Word entry.2 := by
      decide +kernel
    rcases hresolves with hmem | hmem
    · exact absurd (by simpa [Spec.declares] using hmem) hdeclared
    · obtain ⟨text, htext⟩ := Option.isSome_iff_exists.1 (Vocabulary.mem_primitives.1 hmem)
      rw [htext]
      exact hall (fullName, text) (mem_of_lookup_eq_some htext)

theorem reads_ofName {text : String}
    (h : text = "str | None" ∨ text = "bytes | None" ∨ Word text) :
    Reads text (Erasure.ofName text).expression := by
  rcases h with rfl | rfl | hword
  · exact (reads_word (by decide : Word "str")).optional
  · exact (reads_word (by decide : Word "bytes")).optional
  · have hstr : text ≠ "str | None" := by
      rintro rfl
      exact absurd hword (by decide)
    have hbytes : text ≠ "bytes | None" := by
      rintro rfl
      exact absurd hword (by decide)
    rw [Erasure.ofName, if_neg hstr, if_neg hbytes]
    exact reads_word hword

/-! ## The text of a type -/

theorem Reads.template {fullName : String} {rule : TemplateRule}
    (hrule : (fullName, rule) ∈ mapping.templates) {text : String} {x : Erasure}
    (h : Reads text x.expression) :
    Reads (rule.render [text]) (Erasure.ofTemplate fullName [x]).expression := by
  simp only [mapping, List.mem_cons, Prod.mk.injEq, List.not_mem_nil, or_false] at hrule
  rcases hrule with ⟨rfl, rfl⟩ | ⟨rfl, rfl⟩ | ⟨rfl, rfl⟩
  · exact h.list
  · exact h.optional
  · exact h

/-- Python reads the text of a type as the expression of its erasure. -/
theorem reads_resolve {s : Spec} {t : TypeExpr}
    (hmisses : t.misses s mapping.vocabulary "" = []) (hlegible : Legible s t) :
    Reads ((resolver s).resolve t).value (erasure s t).expression := by
  induction t with
  | name path isConst indirection =>
      have hknown := TypeExpr.nameMisses_eq_nil_iff.1 hmisses
      have hname := reads_ofName (nameText_cases (TypeExpr.legible_name.1 hlegible) hknown)
      rw [Resolver.resolve, erasure]
      exact (hname.noted indirection).guarded isConst
  | template path arguments isConst ih =>
      obtain ⟨hlookup, hinner⟩ := TypeExpr.misses_template_eq_nil_iff.1 hmisses
      obtain ⟨rule, a, hrule, rfl, hvalue⟩ :=
        Resolver.value_resolve_unary (r := resolver s) (by simp [mapping, Mapping.unary]) hlookup
          isConst
      have ha := ih a (by simp) (hinner a (by simp))
        (TypeExpr.legible_template.1 hlegible a (by simp))
      rw [hvalue, erasure]
      exact (ha.template hrule).guarded isConst
  | function arguments result isConst isNoExcept hargs hresult =>
      obtain ⟨harguments, hresult'⟩ := TypeExpr.misses_function_eq_nil_iff.1 hmisses
      obtain ⟨-, hlegibles, hlegible'⟩ := TypeExpr.legible_function.1 hlegible
      have hreads : Reads (mapping.function
          (arguments.map fun a => (snakeCase a.1, ((resolver s).resolve a.2).value))
          ((resolver s).resolve result).value)
          (Erasure.callable (erasureArguments s arguments) (erasure s result)).expression := by
        rw [Erasure.expression, Erasure.expressions_eq_map, erasureArguments_eq_map, List.map_map]
        exact .callable (fun a ha => hargs a ha (harguments a ha) (hlegibles a ha))
          (hresult hresult' hlegible')
      rw [Resolver.resolve, Resolver.value_resolveArguments, erasure]
      exact (hreads.noexcept isNoExcept).guarded isConst

/-- The text of a type that resolves tells its erasure: Python reads it as the expression of that
erasure and as no other expression, and types of one text have one erasure. -/
theorem erasure_eq_of_hint_eq (s : Spec) (a b : TypeExpr) (placeA placeB : String)
    (hissuesA : (((resolver s).located placeA).resolve a).issues = [])
    (hissuesB : (((resolver s).located placeB).resolve b).issues = [])
    (hlegibleA : Legible s a) (hlegibleB : Legible s b) :
    (∀ x : Expression, Reads (((resolver s).located placeA).resolve a).value x ↔
      x = (erasure s a).expression) ∧
    ((((resolver s).located placeA).resolve a).value =
        (((resolver s).located placeB).resolve b).value → erasure s a = erasure s b) := by
  have hreads {t : TypeExpr} {place : String}
      (hissues : (((resolver s).located place).resolve t).issues = []) (h : Legible s t) :
      Reads (((resolver s).located place).resolve t).value (erasure s t).expression := by
    rw [Resolver.issues_resolve] at hissues
    rw [Resolver.value_located]
    exact reads_resolve ((TypeExpr.misses_eq_nil_iff place t).1 hissues) h
  have ha := hreads hissuesA hlegibleA
  have hb := hreads hissuesB hlegibleB
  refine ⟨fun x => ⟨fun hx => hx.eq ha, fun hx => hx ▸ ha⟩, fun heq => ?_⟩
  rw [heq] at ha
  exact Erasure.expression_injective (ha.eq hb)

/-- A list of functions that may be missing. They promise not to throw; their argument is a pointer
that stays. -/
def handlers (argument : String) (result : TypeExpr) : TypeExpr :=
  .applied "std::vector" [.applied "util::Optional" [
    .function [(argument, .name ["ns", "Foo"] true { pointer := true })] result false true]]

theorem legible_handlers {argument : String} {result : TypeExpr}
    (h : Legible scopedClassSpec result) : Legible scopedClassSpec (handlers argument result) := by
  have hfoo : IdentifierPath (joinPath ["ns", "Foo"]) := by decide +kernel
  refine TypeExpr.legible_template.2 (List.forall_mem_singleton.2 ?_)
  refine TypeExpr.legible_template.2 (List.forall_mem_singleton.2 ?_)
  refine TypeExpr.legible_function.2 ⟨trivial, List.forall_mem_singleton.2 ?_, h⟩
  exact TypeExpr.legible_name.2 fun _ => hfoo

/-- Neither a shared pointer nor an argument's name is told, nor how an optional text is called. -/
theorem erasure_eq_of_hint_eq_handlers :
    let a := TypeExpr.applied "std::shared_ptr" [handlers "next_item" (.named "StringData")]
    let b := handlers "it" (.applied "util::Optional" [.named "std::string"])
    (((resolver scopedClassSpec).located "").resolve a).value =
      "list[Annotated[Callable[[Annotated[Annotated[ns_Foo, \"pointer\"], \"const\"]], " ++
        "str | None], \"noexcept\"] | None]" ∧
    erasure scopedClassSpec a = erasure scopedClassSpec b := by
  intro a b
  have ha : Legible scopedClassSpec a := by
    refine TypeExpr.legible_template.2 (List.forall_mem_singleton.2 (legible_handlers ?_))
    exact TypeExpr.legible_name.2 (by decide +kernel)
  have hb : Legible scopedClassSpec b := by
    refine legible_handlers (TypeExpr.legible_template.2 (List.forall_mem_singleton.2 ?_))
    exact TypeExpr.legible_name.2 (by decide +kernel)
  have hissuesA : (((resolver scopedClassSpec).located "").resolve a).issues = [] := by
    decide +kernel
  have hissuesB : (((resolver scopedClassSpec).located "").resolve b).issues = [] := by
    decide +kernel
  obtain ⟨hreadsA, hequal⟩ :=
    erasure_eq_of_hint_eq scopedClassSpec a b "" "" hissuesA hissuesB ha hb
  obtain ⟨hreadsB, -⟩ := erasure_eq_of_hint_eq scopedClassSpec b a "" "" hissuesB hissuesA hb ha
  have hcharsA := ((hreadsA _).2 rfl).chars
  have hcharsB := ((hreadsB _).2 rfl).chars
  refine ⟨String.toList_inj.1 (hcharsA.symm.trans ?_), hequal (String.toList_inj.1 ?_)⟩
  · decide +kernel
  · rw [← hcharsA, ← hcharsB]
    decide +kernel

end Bindery.Python
