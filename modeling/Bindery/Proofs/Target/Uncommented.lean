import Bindery.Proofs.Naming
import Bindery.Proofs.Resolution.Placeholders
import Bindery.Proofs.Target.Comment
import Bindery.Proofs.Target.TypeScript
import Mathlib.Data.List.Forall2

/-!
# TypeScript without its comments

`uncommented_resolve`: without its comments, the text of a type is what it would be if modifiers and
placeholders had none. `uncommented_eq_of_alike`: so types that differ in what they miss read the
same, whatever the names that are shown of it.
-/

namespace Bindery.TypeScript

open Naming Text

/-- A text without its comments, or nothing if it ends inside one. The flag tells whether it begins
inside one. -/
def uncommented : Bool → List Char → Option (List Char)
  | false, [] => some []
  | false, '/' :: '*' :: cs => uncommented true cs
  | false, c :: cs => (uncommented false cs).map (c :: ·)
  | true, [] => none
  | true, '*' :: '/' :: cs => uncommented false cs
  | true, _ :: cs => uncommented true cs

theorem uncommented_cons {c : Char} (hc : c ≠ '/') (cs : List Char) :
    uncommented false (c :: cs) = (uncommented false cs).map (c :: ·) := by
  rw [uncommented]
  intro ds hslash
  exact absurd hslash hc

theorem uncommented_true_cons {c : Char} {cs : List Char} (h : ¬ ['*', '/'] <+: c :: cs) :
    uncommented true (c :: cs) = uncommented true cs := by
  rw [uncommented]
  rintro ds rfl rfl
  exact h (List.prefix_append ['*', '/'] ds)

/-- What a comment says is passed over up to its end, if it does not end it before. -/
theorem uncommented_true_append {note : List Char} (h : ¬ ['*', '/'] <:+: note)
    (rest : List Char) :
    uncommented true (note ++ ' ' :: '*' :: '/' :: rest) = uncommented false rest := by
  induction note with
  | nil => rfl
  | cons c note ih =>
      have hnext : ¬ ['*', '/'] <+: c :: (note ++ ' ' :: '*' :: '/' :: rest) := by
        intro hprefix
        obtain ⟨rfl, hslash⟩ := List.cons_prefix_cons.1 hprefix
        cases note with
        | nil => exact absurd (List.cons_prefix_cons.1 hslash).1 (by decide)
        | cons d note =>
            obtain rfl := (List.cons_prefix_cons.1 hslash).1
            exact h (List.prefix_append ['*', '/'] note).isInfix
      rw [List.cons_append, uncommented_true_cons hnext]
      exact ih fun hnote => h (hnote.trans (List.suffix_cons c note).isInfix)

/-! ## Texts that are closed -/

/-- Without its comments, the text is `bare`, whatever comes behind: neither a comment nor the
beginning of one is left open. -/
def Strips (text bare : List Char) : Prop :=
  ∀ rest, uncommented false (text ++ rest) = (uncommented false rest).map (bare ++ ·)

theorem Strips.uncommented {text bare : List Char} (h : Strips text bare) :
    uncommented false text = some bare := by
  have hnil := h []
  rw [List.append_nil] at hnil
  rw [hnil]
  exact congrArg some (List.append_nil bare)

theorem strips_nil : Strips [] [] := by
  intro rest
  simp

theorem Strips.append {a b c d : List Char} (h : Strips a b) (h' : Strips c d) :
    Strips (a ++ c) (b ++ d) := by
  intro rest
  rw [List.append_assoc, h, h', Option.map_map]
  simp [Function.comp_def]

theorem strips_of_slash_not_mem {text : List Char} (h : '/' ∉ text) : Strips text text := by
  induction text with
  | nil => exact strips_nil
  | cons c text ih =>
      obtain ⟨hc, htext⟩ := List.ne_and_not_mem_of_not_mem_cons h
      intro rest
      rw [List.cons_append, uncommented_cons (Ne.symm hc), ih htext, Option.map_map]
      rfl

theorem strips_comment (text : String) : Strips (comment text).toList [] := by
  intro rest
  have hnote : ¬ ['*', '/'] <:+: ' ' :: guardSlashes false text.toList := by
    rw [List.infix_cons_iff]
    rintro (h | h)
    · exact absurd (List.cons_prefix_cons.1 h).1 (by decide)
    · exact not_infix_guardSlashes false text.toList h
  have htext : (comment text).toList ++ rest = '/' :: '*' ::
      ((' ' :: guardSlashes false text.toList) ++ ' ' :: '*' :: '/' :: rest) := by
    simp [comment, toList_replaced]
  rw [htext, TypeScript.uncommented, uncommented_true_append hnote]
  simp

theorem Strips.join {α : Type} {sep : List Char} (hsep : '/' ∉ sep) {text bare : α → List Char}
    {xs : List α} (h : ∀ x ∈ xs, Strips (text x) (bare x)) :
    Strips (Text.join sep (xs.map text)) (Text.join sep (xs.map bare)) := by
  induction xs with
  | nil => exact strips_nil
  | cons x xs ih =>
      obtain ⟨hx, hxs⟩ := List.forall_mem_cons.1 h
      cases xs with
      | nil => exact hx
      | cons y ys =>
          rw [List.map_cons, List.map_cons, List.map_cons, List.map_cons, join_cons_cons,
            join_cons_cons]
          exact hx.append ((strips_of_slash_not_mem hsep).append (ih hxs))

/-! ## The text of a type -/

/-- Writes types with nothing to say of modifiers and placeholders. -/
def bareMapping : Mapping :=
  { mapping with
    annotate := fun text _ => text ++ " "
    placeholder := fun _ => "unknown " }

def bareResolver (s : Spec) : Resolver := { spec := s, mapping := bareMapping }

theorem primitive?_bareMapping (name : String) :
    bareMapping.primitive? name = mapping.primitive? name := rfl

theorem template?_bareMapping (name : String) :
    bareMapping.template? name = mapping.template? name := rfl

theorem spec_bareResolver (s : Spec) : (bareResolver s).spec = s := rfl

theorem mapping_bareResolver (s : Spec) : (bareResolver s).mapping = bareMapping := rfl

theorem strips_placeholder (detail : String) :
    Strips (mapping.placeholder detail).toList (bareMapping.placeholder detail).toList := by
  have hword : Strips "unknown ".toList "unknown ".toList := strips_of_slash_not_mem (by decide)
  simpa [mapping, bareMapping] using hword.append (strips_comment detail)

theorem Strips.annotate {x y : String} (h : Strips x.toList y.toList) (modifiers : List String) :
    Strips (mapping.annotate x modifiers).toList (bareMapping.annotate y modifiers).toList := by
  have hblank : Strips [' '] [' '] := strips_of_slash_not_mem (by decide)
  have hcomment := strips_comment (joined " " modifiers)
  simpa [mapping, bareMapping] using h.append (hblank.append hcomment)

/-- Texts without a slash around a text. -/
theorem Strips.between {a b x y : List Char} (h : Strips x y) (ha : '/' ∉ a) (hb : '/' ∉ b) :
    Strips (a ++ (x ++ b)) (a ++ (y ++ b)) :=
  (strips_of_slash_not_mem ha).append (h.append (strips_of_slash_not_mem hb))

theorem Strips.readonly {x y : String} (h : Strips x.toList y.toList) :
    Strips (mapping.readonly x).toList (bareMapping.readonly y).toList := by
  simpa [mapping, bareMapping] using
    h.between (a := "Readonly<".toList) (b := ">".toList) (by decide) (by decide)

theorem Strips.function {α : Type} {xs : List α} {name x y : α → String} {result result' : String}
    (hnames : ∀ a ∈ xs, '/' ∉ (name a).toList) (h : ∀ a ∈ xs, Strips (x a).toList (y a).toList)
    (hresult : Strips result.toList result'.toList) :
    Strips (mapping.function (xs.map fun a => (name a, x a)) result).toList
      (bareMapping.function (xs.map fun a => (name a, y a)) result').toList := by
  have hparts : ∀ a ∈ xs, Strips (name a ++ ": " ++ x a).toList (name a ++ ": " ++ y a).toList := by
    intro a ha
    have hname : '/' ∉ (name a ++ ": ").toList := by simp [hnames a ha]
    simpa only [String.toList_append] using (strips_of_slash_not_mem hname).append (h a ha)
  have hjoin := Strips.join (by decide : '/' ∉ ", ".toList) hparts
  have harrow := (hjoin.between (a := ['(']) (b := ") => ".toList) (by decide) (by decide)).append
    hresult
  simpa [mapping, bareMapping, parameters, joined, Function.comp_def] using harrow

theorem strips_primitive {name text : String} (h : mapping.primitive? name = some text) :
    Strips text.toList text.toList := by
  have hall : ∀ entry ∈ mapping.primitives, '/' ∉ entry.2.toList := by decide
  exact strips_of_slash_not_mem (hall _ (mem_of_lookup_eq_some h))

theorem Strips.render {name : String} {rule : TemplateRule} (h : mapping.template? name = some rule)
    {α : Type} {xs : List α} {x y : α → String} (hxs : ∀ a ∈ xs, Strips (x a).toList (y a).toList) :
    Strips (rule.render (xs.map x)).toList (rule.render (xs.map y)).toList := by
  have hfirst : Strips ((xs.map x).head?.getD "").toList ((xs.map y).head?.getD "").toList := by
    cases xs with
    | nil => exact strips_nil
    | cons a xs => exact hxs a (by simp)
  have hmem := mem_of_lookup_eq_some h
  simp only [mapping, List.mem_cons, Prod.mk.injEq, List.not_mem_nil, or_false] at hmem
  rcases hmem with ⟨-, rfl⟩ | ⟨-, rfl⟩ | ⟨-, rfl⟩
  · simpa [Mapping.unary] using
      hfirst.between (a := ['(']) (b := ")[]".toList) (by decide) (by decide)
  · simpa [Mapping.unary] using
      hfirst.between (a := ['(']) (b := ") | undefined".toList) (by decide) (by decide)
  · exact hfirst

variable {s : Spec}

theorem Strips.annotated {x y : String} (h : Strips x.toList y.toList) (modifiers : List String) :
    Strips ((resolver s).annotated x modifiers).toList
      ((bareResolver s).annotated y modifiers).toList := by
  cases modifiers with
  | nil => exact h
  | cons modifier modifiers => exact h.annotate (modifier :: modifiers)

theorem Strips.guarded {x y : String} (h : Strips x.toList y.toList) (isConst : Bool) :
    Strips ((resolver s).guarded isConst x).toList ((bareResolver s).guarded isConst y).toList := by
  cases isConst with
  | false => exact h
  | true => exact h.readonly

theorem strips_resolveName (hs : ∀ name ∈ s.declaredNames, '/' ∉ name.toList) (fullName : String) :
    Strips ((resolver s).resolveName fullName).value.toList
      ((bareResolver s).resolveName fullName).value.toList := by
  rw [Resolver.resolveName, Resolver.resolveName, spec_resolver, spec_bareResolver,
    mapping_resolver, mapping_bareResolver, primitive?_bareMapping]
  by_cases hdeclared : s.declares fullName = true
  · have hname : fullName ∈ s.declaredNames := by simpa [Spec.declares] using hdeclared
    rw [if_pos hdeclared, if_pos hdeclared]
    exact strips_of_slash_not_mem (not_mem_entityIdentifier (by decide) (hs fullName hname))
  · rw [if_neg hdeclared, if_neg hdeclared]
    cases hprimitive : mapping.primitive? fullName with
    | none => exact strips_placeholder fullName
    | some text => exact strips_primitive hprimitive

/-- The arguments of every function that a type reaches are named without a slash. -/
def Unslashed (t : TypeExpr) : Prop :=
  ∀ arguments result isConst isNoExcept,
    TypeExpr.Reaches mapping.vocabulary (.function arguments result isConst isNoExcept) t →
      ∀ a ∈ arguments, '/' ∉ a.1.toList

theorem unslashed_name (path isConst indirection) : Unslashed (.name path isConst indirection) := by
  intro arguments result isConst isNoExcept hreaches
  cases hreaches

theorem unslashed_template {path arguments isConst} :
    Unslashed (.template path arguments isConst) ↔
      ((mapping.template? (joinPath path)).isSome = true → ∀ a ∈ arguments, Unslashed a) := by
  have hlookup : (mapping.vocabulary.templates.lookup (joinPath path)).isSome =
      (mapping.template? (joinPath path)).isSome := by
    rw [Vocabulary.lookup_templates, Option.isSome_map]
  rw [← hlookup]
  constructor
  · intro h hsome a ha inputs result c n hreaches
    exact h inputs result c n (.templateArgument hsome ha hreaches)
  · intro h inputs result c n hreaches
    cases hreaches with
    | templateArgument hsome ha hreaches => exact h hsome _ ha inputs result c n hreaches

theorem unslashed_function {arguments result isConst isNoExcept} :
    Unslashed (.function arguments result isConst isNoExcept) ↔
      (∀ a ∈ arguments, '/' ∉ a.1.toList ∧ Unslashed a.2) ∧ Unslashed result := by
  constructor
  · intro h
    refine ⟨fun a ha => ⟨h _ _ _ _ .self a ha, fun inputs output c n hreaches => ?_⟩,
      fun inputs output c n hreaches => ?_⟩
    · exact h inputs output c n (.functionArgument ha hreaches)
    · exact h inputs output c n (.functionResult hreaches)
  · rintro ⟨hargs, hresult⟩ inputs output c n hreaches
    cases hreaches with
    | self => exact fun a ha => (hargs a ha).1
    | functionArgument ha hreaches => exact (hargs _ ha).2 inputs output c n hreaches
    | functionResult hreaches => exact hresult inputs output c n hreaches

/-- The text of a type opens no comment that it leaves open, and without its comments it is bare. -/
theorem strips_resolve (hs : ∀ name ∈ s.declaredNames, '/' ∉ name.toList) {t : TypeExpr}
    (ht : Unslashed t) :
    Strips ((resolver s).resolve t).value.toList ((bareResolver s).resolve t).value.toList := by
  induction t with
  | name path isConst indirection =>
      exact ((strips_resolveName hs (joinPath path)).annotated indirection.names).guarded isConst
  | template path arguments isConst ih =>
      rw [Resolver.value_resolve_template, Resolver.value_resolve_template]
      refine Strips.guarded ?_ isConst
      have hplaceholder := strips_placeholder (Resolver.templateDetail (joinPath path) arguments)
      rw [mapping_resolver, mapping_bareResolver, template?_bareMapping]
      cases hrule : mapping.template? (joinPath path) with
      | none => exact hplaceholder
      | some rule =>
          by_cases harity : arguments.length = rule.arity
          · have hinner := unslashed_template.1 ht (Option.isSome_of_eq_some hrule)
            have hrender := Strips.render hrule fun a ha => ih a ha (hinner a ha)
            simpa only [if_pos harity] using hrender
          · simpa only [if_neg harity] using hplaceholder
  | function arguments result isConst isNoExcept hargs hresult =>
      obtain ⟨hinputs, houtput⟩ := unslashed_function.1 ht
      have hnames : ∀ a ∈ arguments, '/' ∉ (camelCase a.1).toList := fun a ha =>
        not_mem_camelCase (by decide) (by decide) (hinputs a ha).1
      have hfunction := Strips.function hnames (fun a ha => hargs a ha (hinputs a ha).2)
        (hresult houtput)
      rw [Resolver.resolve, Resolver.resolve, Resolver.value_resolveArguments,
        Resolver.value_resolveArguments]
      exact (hfunction.annotated (if isNoExcept then ["noexcept"] else [])).guarded isConst

/-- Without its comments, the text of a type is bare. -/
theorem uncommented_resolve (hs : ∀ name ∈ s.declaredNames, '/' ∉ name.toList) {t : TypeExpr}
    (ht : Unslashed t) (place : String) :
    uncommented false (((resolver s).located place).resolve t).value.toList =
      some ((bareResolver s).resolve t).value.toList := by
  rw [Resolver.value_located]
  exact (strips_resolve hs ht).uncommented

/-! ## Types that differ in what they miss -/

/-- Types of one shape that differ only in names that nothing declares and the target does not know,
and in templates that it does not know, with all that is in these. -/
inductive Alike (s : Spec) (v : Vocabulary) : TypeExpr → TypeExpr → Prop where
  | name (path isConst indirection) :
      Alike s v (.name path isConst indirection) (.name path isConst indirection)
  | missing {path path'} (isConst indirection) :
      joinPath path ∉ s.declaredNames → joinPath path ∉ v.primitives →
      joinPath path' ∉ s.declaredNames → joinPath path' ∉ v.primitives →
      Alike s v (.name path isConst indirection) (.name path' isConst indirection)
  | template (path isConst) {arguments arguments'} :
      List.Forall₂ (Alike s v) arguments arguments' →
      Alike s v (.template path arguments isConst) (.template path arguments' isConst)
  | absent {path path'} (arguments arguments' isConst) :
      v.templates.lookup (joinPath path) = none → v.templates.lookup (joinPath path') = none →
      Alike s v (.template path arguments isConst) (.template path' arguments' isConst)
  | function {arguments arguments' result result'} (isConst isNoExcept) :
      arguments.map Prod.fst = arguments'.map Prod.fst →
      List.Forall₂ (Alike s v) (arguments.map Prod.snd) (arguments'.map Prod.snd) →
      Alike s v result result' →
      Alike s v (.function arguments result isConst isNoExcept)
        (.function arguments' result' isConst isNoExcept)

theorem map_eq_of_forall₂ {α β : Type} {R : α → α → Prop} {f : α → β} {xs ys : List α}
    (h : List.Forall₂ R xs ys) (hf : ∀ x ∈ xs, ∀ y, R x y → f x = f y) : xs.map f = ys.map f := by
  induction h with
  | nil => rfl
  | cons hxy _ ih =>
      rw [List.map_cons, List.map_cons, hf _ List.mem_cons_self _ hxy,
        ih fun x hx => hf x (List.mem_cons_of_mem _ hx)]

theorem resolveName_of_not_mem {fullName : String} (hdeclared : fullName ∉ s.declaredNames)
    (hprimitive : fullName ∉ mapping.vocabulary.primitives) :
    ((bareResolver s).resolveName fullName).value = "unknown " := by
  have hname : ¬ s.declares fullName = true := by simpa [Spec.declares] using hdeclared
  have hnone : bareMapping.primitive? fullName = none := by
    rw [primitive?_bareMapping]
    simpa [Vocabulary.mem_primitives] using hprimitive
  rw [Resolver.resolveName, spec_bareResolver, if_neg hname, mapping_bareResolver, hnone]
  rfl

theorem bare_resolve_eq {t t' : TypeExpr} (h : Alike s mapping.vocabulary t t') :
    ((bareResolver s).resolve t).value = ((bareResolver s).resolve t').value := by
  induction t generalizing t' with
  | name path isConst indirection =>
      cases h with
      | name => rfl
      | missing _ _ hdeclared hprimitive hdeclared' hprimitive' =>
          rw [Resolver.resolve, Resolver.resolve]
          simp only [resolveName_of_not_mem hdeclared hprimitive,
            resolveName_of_not_mem hdeclared' hprimitive']
  | template path arguments isConst ih =>
      cases h with
      | template _ _ harguments =>
          have hinner := map_eq_of_forall₂ (f := fun a => ((bareResolver s).resolve a).value)
            harguments ih
          rw [Resolver.value_resolve_template, Resolver.value_resolve_template, hinner,
            harguments.length_eq]
          rfl
      | absent _ arguments' _ hlookup hlookup' =>
          have hnone {name : String} (h : mapping.vocabulary.templates.lookup name = none) :
              (bareResolver s).mapping.template? name = none := by
            rw [mapping_bareResolver, template?_bareMapping]
            simpa [Vocabulary.lookup_templates] using h
          rw [Resolver.value_resolve_template, Resolver.value_resolve_template, hnone hlookup,
            hnone hlookup']
          rfl
  | function arguments result isConst isNoExcept hargs hresult =>
      cases h with
      | function _ _ hnames hargs' hresult' =>
          have hvalues := map_eq_of_forall₂ (f := fun a => ((bareResolver s).resolve a).value)
            hargs' (List.forall_mem_map.2 hargs)
          have hinputs (inputs : List (String × TypeExpr)) :
              ((bareResolver s).resolveArguments inputs).value =
                ((inputs.map Prod.fst).map camelCase).zip
                  ((inputs.map Prod.snd).map fun a => ((bareResolver s).resolve a).value) := by
            rw [Resolver.value_resolveArguments, List.map_map, List.map_map, List.zip_map']
            rfl
          rw [Resolver.resolve, Resolver.resolve, hinputs, hinputs, hnames, hvalues,
            hresult hresult']

/-- Without their comments, types of one shape that differ only in what they miss have one text, and
none of them leaves a comment open. A slash in a name that is missed, or below a template that is,
does no harm. -/
theorem uncommented_eq_of_alike (s : Spec) (hs : ∀ name ∈ s.declaredNames, '/' ∉ name.toList)
    (t t' : TypeExpr) (ht : Unslashed t) (ht' : Unslashed t') (h : Alike s mapping.vocabulary t t')
    (place place' : String) :
    ∃ text, uncommented false (((resolver s).located place).resolve t).value.toList = some text ∧
      uncommented false (((resolver s).located place').resolve t').value.toList = some text := by
  refine ⟨((bareResolver s).resolve t).value.toList, uncommented_resolve hs ht place, ?_⟩
  rw [bare_resolve_eq h]
  exact uncommented_resolve hs ht' place'

/-- A list of functions with two arguments that are missed: a name by a pointer, and a template. -/
def missingTypes (name template : String) (inner : List TypeExpr) : TypeExpr :=
  .applied "std::vector" [
    .function [("first", .name [name] true { pointer := true }),
      ("second", .template [template] inner false)] (.named "ns::Foo") false true]

theorem unslashed_missingTypes {name template : String} {inner : List TypeExpr}
    (h : mapping.template? (joinPath [template]) = none) :
    Unslashed (missingTypes name template inner) := by
  have htemplate : Unslashed (.template [template] inner false) := by simp [unslashed_template, h]
  refine unslashed_template.2 fun _ => List.forall_mem_singleton.2 (unslashed_function.2 ⟨?_, ?_⟩)
  · simp [htemplate, unslashed_name]
  · exact unslashed_name _ _ _

/-- Names that begin comments and end them, and an argument below a template that does. -/
theorem uncommented_eq_of_alike_missing :
    let s : Spec := { classes := .ofList [("ns::Foo", {})] }
    let inner := TypeExpr.function [("/*\n\"", .named "*/")] (.named "") true true
    let t := missingTypes "*/ any /*" "**//" [inner]
    let t' := missingTypes "a" "b" []
    let text := "((first: Readonly<unknown  >, second: unknown ) => ns_Foo )[]".toList
    uncommented false (((resolver s).located "x").resolve t).value.toList = some text ∧
    uncommented false (((resolver s).located "y").resolve t').value.toList = some text := by
  intro s inner t t' text
  have halike : Alike s mapping.vocabulary t t' := by
    refine .template _ _ (.cons (.function _ _ rfl (.cons ?_ (.cons ?_ .nil)) (.name _ _ _)) .nil)
    · exact .missing _ _ (by decide +kernel) (by decide +kernel) (by decide +kernel)
        (by decide +kernel)
    · exact .absent _ _ _ (by decide +kernel) (by decide +kernel)
  obtain ⟨_, htext, htext'⟩ := uncommented_eq_of_alike s (by decide +kernel) t t'
    (unslashed_missingTypes rfl) (unslashed_missingTypes rfl) halike "x" "y"
  have hvalue : uncommented false (((resolver s).located "y").resolve t').value.toList =
      some text := by
    decide +kernel
  rw [hvalue] at htext'
  exact ⟨htext.trans htext'.symm, hvalue⟩

end Bindery.TypeScript
