import Bindery.Proofs.Resolution.Placeholders
import Bindery.Proofs.Spec.PlainNames
import Bindery.Proofs.Target.TypeScript
import Bindery.Proofs.Target.Walk

/-!
# Placeholders in TypeScript

`shows_shape`: the text of a type has as many placeholders as the type shows, if no name could be
taken for one.
-/

namespace Bindery.TypeScript

open Naming Text

/-- What every placeholder begins with, and no other text. -/
def placeholderMark : List Char := "unknown /* ".toList

/-- The number of placeholders in a text. -/
def shown (text : List Char) : Nat := occurrences placeholderMark text

theorem shown_of_slash_not_mem {cs : List Char} (h : '/' ∉ cs) : shown cs = 0 :=
  occurrences_eq_zero (by decide) h

@[simp] theorem shown_nil : shown [] = 0 := rfl

theorem shown_cons {c : Char} (hc : c ≠ 'u') (cs : List Char) : shown (c :: cs) = shown cs :=
  occurrences_cons_of_ne hc cs

theorem shown_append_cons {c : Char} (hc : c ∉ placeholderMark) (a b : List Char) :
    shown (a ++ c :: b) = shown a + shown b :=
  occurrences_append_cons hc (by decide) a b

theorem shown_mark_append (cs : List Char) : shown (placeholderMark ++ cs) = 1 + shown cs := by
  have htail : shown (placeholderMark.tail ++ cs) = shown cs :=
    occurrences_append_of_not_mem (by decide) cs
  rw [← htail]
  exact congrArg (· + _) (if_pos (List.prefix_append placeholderMark cs))

/-! ## Comments -/

/-- The text does not end in what a comment behind it would complete to a placeholder. -/
def Closed (text : List Char) : Prop :=
  ¬ unknownWord <:+ text ∧ ¬ ['*'] <:+ text

instance (text : List Char) : Decidable (Closed text) :=
  inferInstanceAs (Decidable (_ ∧ _))

theorem Closed.append_cons {c : Char} {b : List Char} (h : Closed b) (hword : c ∉ unknownWord)
    (hstar : c ∉ ['*']) (a : List Char) : Closed (a ++ c :: b) :=
  ⟨fun hsuffix => h.1 (suffix_of_suffix_append_cons hsuffix hword),
    fun hsuffix => h.2 (suffix_of_suffix_append_cons hsuffix hstar)⟩

theorem apart_of_take {pattern a b : List Char}
    (h : ∀ n, 0 < n → n < pattern.length → pattern.take n <:+ a → ¬ pattern.drop n <+: b) :
    Apart pattern a b := by
  rintro p q rfl hp hq hpa hqb
  have hp' : 0 < p.length := List.length_pos_iff.2 hp
  have hq' : 0 < q.length := List.length_pos_iff.2 hq
  refine h p.length hp' (by simp; omega) ?_ ?_
  · simpa using hpa
  · simpa using hqb

/-- Where a comment completes a placeholder, that has begun with the word or with all up to the
star. -/
theorem apart_comment {x : List Char} (hx : Closed x) (b : List Char) :
    Apart placeholderMark x (' ' :: b) := by
  refine apart_of_take fun n hpos hlt htake hdrop => ?_
  have hblank : ∀ n < 11, 0 < n → (placeholderMark.drop n).head? = some ' ' →
      placeholderMark.take n = unknownWord ∨ ['*'] <:+ placeholderMark.take n := by decide
  have hhead : (placeholderMark.drop n).head? = some ' ' := by
    cases hq : placeholderMark.drop n with
    | nil => exact absurd (List.drop_eq_nil_iff.1 hq) (Nat.not_le.2 hlt)
    | cons d q =>
        rw [hq] at hdrop
        rw [(List.cons_prefix_cons.1 hdrop).1]
        rfl
  rcases hblank n hlt hpos hhead with hword | hstar
  · exact hx.1 (hword ▸ htake)
  · exact hx.2 (hstar.trans htake)

theorem shown_comment_end {note : List Char} (hnote : '/' ∉ note) :
    shown (note ++ [' ', '*', '/']) = 0 := by
  have hslash : ∀ n < 11, 0 < n → ¬ placeholderMark.drop n <+: ['/'] := by decide
  have hseam : Apart placeholderMark (note ++ [' ', '*']) ['/'] :=
    apart_of_take fun n hpos hlt _ => hslash n hlt hpos
  have hsplit : note ++ [' ', '*', '/'] = (note ++ [' ', '*']) ++ ['/'] := by simp
  rw [hsplit, shown, occurrences_append hseam]
  have hquiet : shown (note ++ [' ', '*']) = 0 := shown_of_slash_not_mem (by simpa using hnote)
  rw [← shown, hquiet]
  rfl

/-- The text of a comment; it is left as it is if it has no slash. -/
theorem comment_toList {note : String} (hnote : '/' ∉ note.toList) :
    (comment note).toList = '/' :: '*' :: ' ' :: (note.toList ++ [' ', '*', '/']) := by
  have hsame : replaced "*/" "*\\/" note = note := by
    rw [replaced, replace_of_not_mem (x := '/') _ (by decide) hnote, String.ofList_toList]
  rw [comment, hsame]
  simp

theorem shown_annotate {x : String} {modifiers : List String} (hx : Closed x.toList)
    (hnote : '/' ∉ (joined " " modifiers).toList) :
    shown (mapping.annotate x modifiers).toList = shown x.toList := by
  have htext : (mapping.annotate x modifiers).toList = x.toList ++ ' ' :: '/' :: '*' :: ' ' ::
      ((joined " " modifiers).toList ++ [' ', '*', '/']) := by
    simp [mapping, comment_toList hnote]
  rw [htext, shown, occurrences_append (apart_comment hx _), ← shown, ← shown,
    shown_cons (by decide), shown_cons (by decide), shown_cons (by decide), shown_cons (by decide),
    shown_comment_end hnote, Nat.add_zero]

theorem shown_placeholder {detail : String} (hdetail : '/' ∉ detail.toList) :
    shown (mapping.placeholder detail).toList = 1 := by
  have htext : (mapping.placeholder detail).toList =
      placeholderMark ++ (detail.toList ++ [' ', '*', '/']) := by
    change ("unknown " ++ comment detail).toList = _
    rw [String.toList_append, comment_toList hdetail]
    rfl
  rw [htext, shown_mark_append, shown_comment_end hdetail]

/-! ## The text of a type -/

/-- A text with so many placeholders, behind which a comment may stand. -/
structure Shows (n : Nat) (text : List Char) : Prop where
  count : shown text = n
  closed : Closed text

theorem Shows.behind {n : Nat} {c : Char} {b : List Char} (h : Shows n b)
    (hc : c ∉ placeholderMark) (a : List Char) : Shows (shown a + n) (a ++ c :: b) := by
  have hsubset : unknownWord ⊆ placeholderMark ∧ ['*'] ⊆ placeholderMark := by decide
  refine ⟨?_, ?_⟩
  · rw [shown_append_cons hc, h.count]
  · exact h.closed.append_cons (fun hmem => hc (hsubset.1 hmem)) (fun hmem => hc (hsubset.2 hmem)) a

theorem shows_of_slash_not_mem {text : List Char} (hslash : '/' ∉ text) (hclosed : Closed text) :
    Shows 0 text :=
  ⟨shown_of_slash_not_mem hslash, hclosed⟩

theorem Shows.readonly {n : Nat} {x : String} (h : Shows n x.toList) :
    Shows n (mapping.readonly x).toList := by
  have hend : Shows 0 [] := shows_of_slash_not_mem (by decide) (by decide)
  have hx := hend.behind (c := '>') (by decide) x.toList
  have hall := hx.behind (c := '<') (by decide) "Readonly".toList
  rw [h.count, shown_of_slash_not_mem (by decide), Nat.zero_add, Nat.add_zero] at hall
  have htext : (mapping.readonly x).toList = "Readonly".toList ++ '<' :: (x.toList ++ ['>']) := by
    simp [mapping]
  rwa [htext]

theorem Shows.annotate {n : Nat} {x : String} {modifiers : List String} (h : Shows n x.toList)
    (hnote : '/' ∉ (joined " " modifiers).toList) :
    Shows n (mapping.annotate x modifiers).toList := by
  refine ⟨(shown_annotate h.closed hnote).trans h.count, ?_⟩
  have hend : Closed ['*', '/'] := by decide
  have htext : (mapping.annotate x modifiers).toList =
      (x.toList ++ ' ' :: '/' :: '*' :: ' ' :: (joined " " modifiers).toList) ++
        ' ' :: ['*', '/'] := by
    simp [mapping, comment_toList hnote]
  rw [htext]
  exact hend.append_cons (by decide) (by decide) _

theorem shows_placeholder {detail : String} (hdetail : '/' ∉ detail.toList) :
    Shows 1 (mapping.placeholder detail).toList := by
  refine ⟨shown_placeholder hdetail, ?_⟩
  have hend : Closed ['*', '/'] := by decide
  have htext : (mapping.placeholder detail).toList =
      ("unknown /* ".toList ++ detail.toList) ++ ' ' :: ['*', '/'] := by
    change ("unknown " ++ comment detail).toList = _
    rw [String.toList_append, comment_toList hdetail]
    simp
  rw [htext]
  exact hend.append_cons (by decide) (by decide) _

theorem shows_primitive {name text : String} (h : mapping.primitive? name = some text) :
    Shows 0 text.toList := by
  have hall : ∀ entry ∈ mapping.primitives, '/' ∉ entry.2.toList ∧ Closed entry.2.toList := by
    decide
  obtain ⟨hslash, hclosed⟩ := hall _ (mem_of_lookup_eq_some h)
  exact shows_of_slash_not_mem hslash hclosed

/-- Every template takes one argument and adds no placeholder to it. -/
theorem shows_template {name : String} {rule : TemplateRule}
    (h : mapping.template? name = some rule) : rule.arity = 1 ∧
      ∀ n, ∀ x : String, Shows n x.toList → Shows n (rule.render [x]).toList := by
  have hrules : rule = Mapping.unary (fun a => "(" ++ a ++ ")[]") ∨
      rule = Mapping.unary (fun a => "(" ++ a ++ ") | undefined") ∨ rule = Mapping.unary id := by
    have hmem := mem_of_lookup_eq_some h
    simp only [mapping, List.mem_cons, Prod.mk.injEq, List.not_mem_nil, or_false] at hmem
    rcases hmem with ⟨-, h⟩ | ⟨-, h⟩ | ⟨-, h⟩
    · exact .inl h
    · exact .inr (.inl h)
    · exact .inr (.inr h)
  have hparenthesized (tail : String) (htail : Shows 0 tail.toList) (n : Nat) (x : String)
      (hx : Shows n x.toList) : Shows n (("(" ++ x ++ ")" ++ tail).toList) := by
    have hbehind := htail.behind (c := ')') (by decide) x.toList
    have hall := hbehind.behind (c := '(') (by decide) []
    simpa [hx.count] using hall
  rcases hrules with rfl | rfl | rfl
  · refine ⟨rfl, fun n x hx => ?_⟩
    have htail : Shows 0 "[]".toList := shows_of_slash_not_mem (by decide) (by decide)
    simpa [Mapping.unary] using hparenthesized "[]" htail n x hx
  · refine ⟨rfl, fun n x hx => ?_⟩
    have htail : Shows 0 " | undefined".toList := shows_of_slash_not_mem (by decide) (by decide)
    simpa [Mapping.unary] using hparenthesized " | undefined" htail n x hx
  · exact ⟨rfl, fun n x hx => hx⟩

/-- Arguments show what their types show. -/
theorem shown_parameters {arguments : List (String × String)}
    (h : ∀ a ∈ arguments, '/' ∉ a.1.toList) :
    shown (parameters arguments).toList = (arguments.map fun a => shown a.2.toList).sum := by
  have hpart : ∀ a ∈ arguments, shown (a.1 ++ ": " ++ a.2).toList = shown a.2.toList := by
    intro a ha
    have htext : (a.1 ++ ": " ++ a.2).toList = a.1.toList ++ ':' :: ' ' :: a.2.toList := by simp
    rw [htext, shown_append_cons (by decide), shown_of_slash_not_mem (h a ha),
      shown_cons (by decide), Nat.zero_add]
  have hjoin : shown (parameters arguments).toList =
      ((arguments.map fun a => (a.1 ++ ": " ++ a.2).toList).map shown).sum := by
    rw [parameters, joined, String.toList_ofList, List.map_map]
    exact occurrences_join (by decide) (show 'u' ∉ [' '] by decide) _
  rw [hjoin, List.map_map]
  exact congrArg List.sum (List.map_congr_left hpart)

theorem Shows.function {n : Nat} {result : String} (h : Shows n result.toList)
    (arguments : List (String × String)) :
    Shows (shown (parameters arguments).toList + n) (mapping.function arguments result).toList := by
  have hblank : Shows n (' ' :: result.toList) := by
    refine ⟨(shown_cons (by decide) _).trans h.count, ?_⟩
    exact h.closed.append_cons (c := ' ') (by decide) (by decide) []
  have harrow := hblank.behind (c := '>') (by decide) [' ', '=']
  have hlist := harrow.behind (c := ')') (by decide) (parameters arguments).toList
  have hall := hlist.behind (c := '(') (by decide) []
  have htext : (mapping.function arguments result).toList = [] ++ '(' ::
      ((parameters arguments).toList ++ ')' :: ([' ', '='] ++ '>' :: ' ' :: result.toList)) := by
    simp [mapping]
  have hequals : shown [' ', '='] = 0 := shown_of_slash_not_mem (by decide)
  rw [hequals, shown_nil, Nat.zero_add, Nat.zero_add] at hall
  rwa [htext]

variable {s : Spec}

theorem shows_nameShape (hs : ∀ name ∈ s.declaredNames, PlainPath name) {path : List String}
    (hpath : ∀ part ∈ path, Plain part) :
    Shows (TypeExpr.nameMisses s mapping.vocabulary "" (joinPath path)).length
      (mapping.print (TypeExpr.nameShape s mapping (joinPath path))).toList := by
  rw [TypeExpr.nameMisses, TypeExpr.nameShape]
  by_cases hd : joinPath path ∈ s.declaredNames
  · have hplain := hs _ hd
    have hchars := isPlainChar_of_mem_entityIdentifier hplain
    have hstar : ¬ ['*'] <:+ (entityIdentifier (joinPath path)).toList := fun hsuffix =>
      absurd (hchars '*' (hsuffix.subset (by simp))) (by decide)
    rw [if_pos (.inl hd), if_pos (by simpa [Spec.declares] using hd)]
    exact shows_of_slash_not_mem (slash_not_mem hchars)
      ⟨not_unknown_suffix_entityIdentifier hplain, hstar⟩
  · cases hp : mapping.primitive? (joinPath path) with
    | some text =>
        have hprimitive : joinPath path ∈ mapping.vocabulary.primitives :=
          Vocabulary.mem_primitives.2 (by simp [hp])
        simpa [Spec.declares, hd, hprimitive, Mapping.print, hp] using shows_primitive hp
    | none =>
        have hprimitive : joinPath path ∉ mapping.vocabulary.primitives := fun hmem => by
          simpa [hp] using Vocabulary.mem_primitives.1 hmem
        have hshows := shows_placeholder (TypeExpr.slash_not_mem_joinPath hpath)
        by_cases hprim : joinPath path ∈ s.primitives <;>
          simpa [Spec.declares, hd, hprimitive, Mapping.print, hprim] using hshows

theorem Shows.guarded {n : Nat} {x : Shape} (h : Shows n (mapping.print x).toList)
    (isConst : Bool) : Shows n (mapping.print (x.guarded isConst)).toList := by
  rw [Mapping.print_guarded]
  cases isConst with
  | false => exact h
  | true => exact h.readonly

theorem Shows.noted {n : Nat} {x : Shape} {modifiers : List String}
    (h : Shows n (mapping.print x).toList) (hnote : '/' ∉ (joined " " modifiers).toList) :
    Shows n (mapping.print (x.noted modifiers)).toList := by
  rw [Mapping.print_noted]
  cases modifiers with
  | nil => exact h
  | cons modifier modifiers => exact h.annotate hnote

theorem slash_not_mem_names (i : Indirection) : '/' ∉ (joined " " i.names).toList := by
  obtain ⟨pointer, reference, rvalueReference⟩ := i
  cases pointer <;> cases reference <;> cases rvalueReference <;> decide

/-- Arguments have the placeholders that their types show. -/
theorem shown_arguments {arguments : List (String × TypeExpr)}
    (hnames : ∀ a ∈ arguments, Plain a.1)
    (htypes : ∀ a ∈ arguments, Shows (a.2.placeholders s mapping.vocabulary)
      (mapping.print (a.2.shape s mapping)).toList) :
    shown (parameters (mapping.printArguments
        (TypeExpr.shapeArguments s mapping arguments))).toList =
      TypeExpr.placeholdersArguments s mapping.vocabulary arguments := by
  have hprinted : mapping.printArguments (TypeExpr.shapeArguments s mapping arguments) =
      arguments.map fun a => (camelCase a.1, mapping.print (a.2.shape s mapping)) := by
    rw [Mapping.printArguments_eq_map, TypeExpr.shapeArguments_eq_map, List.map_map]
    rfl
  have hslash : ∀ a ∈ arguments.map fun a => (camelCase a.1, mapping.print (a.2.shape s mapping)),
      '/' ∉ a.1.toList :=
    List.forall_mem_map.2 fun a ha =>
      slash_not_mem (isPlainChar_of_mem_camelCase (hnames a ha).chars)
  rw [hprinted, shown_parameters hslash, List.map_map, TypeExpr.placeholdersArguments_eq_sum]
  exact congrArg List.sum (List.map_congr_left fun a ha => (htypes a ha).count)

/-- The text of a type has the placeholders that the type shows. -/
theorem shows_shape (hs : ∀ name ∈ s.declaredNames, PlainPath name) {t : TypeExpr}
    (ht : t.PlainlyNamed) :
    Shows (t.placeholders s mapping.vocabulary) (mapping.print (t.shape s mapping)).toList := by
  induction t with
  | name path isConst indirection =>
      have hname := shows_nameShape hs (TypeExpr.plainlyNamed_name.1 ht)
      exact (hname.noted (slash_not_mem_names indirection)).guarded isConst
  | template path arguments isConst ih =>
      have harguments := (TypeExpr.plainlyNamed_template.1 ht).2
      have hdetail := shows_placeholder (TypeExpr.slash_not_mem_templateDetail ht)
      rw [TypeExpr.placeholders, TypeExpr.shape]
      refine Shows.guarded ?_ isConst
      rw [TypeExpr.templatePlaceholders, Vocabulary.lookup_templates, TypeExpr.templateShape]
      cases h : mapping.template? (joinPath path) with
      | none => simpa [Mapping.print] using hdetail
      | some rule =>
          by_cases ha : arguments.length = rule.arity
          · obtain ⟨harity, hrender⟩ := shows_template h
            obtain ⟨a, rfl⟩ := List.length_eq_one_iff.1 (ha.trans harity)
            have hinner := hrender _ _ (ih a (by simp) (harguments a (by simp)))
            simpa [harity, TypeExpr.placeholdersAll, TypeExpr.shapeAll, Mapping.print,
              Mapping.printAll, h] using hinner
          · simpa [ha, Mapping.print] using hdetail
  | function arguments result isConst isNoExcept hargs hresult =>
      obtain ⟨hinputs, houtput⟩ := TypeExpr.plainlyNamed_function.1 ht
      have harguments := shown_arguments (fun a ha => (hinputs a ha).1) fun a ha =>
        hargs a ha (hinputs a ha).2
      have hfunction := (hresult houtput).function
        (mapping.printArguments (TypeExpr.shapeArguments s mapping arguments))
      have hnote : '/' ∉ (joined " " (if isNoExcept then ["noexcept"] else [])).toList := by
        cases isNoExcept <;> decide
      rw [harguments, ← Mapping.print] at hfunction
      rw [TypeExpr.placeholders, TypeExpr.shape]
      exact (hfunction.noted hnote).guarded isConst

end Bindery.TypeScript
