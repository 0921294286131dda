import Bindery.Proofs.Resolution.Placeholders
import Bindery.Proofs.Target.Legible
import Bindery.Proofs.Target.Phrase
import Bindery.Proofs.Target.TypeScript

/-!
# What the text of a type in TypeScript tells

`erasure_eq_of_value_eq`: all of a type but what shares it and which names stand for one word. A
reader of the text who knows TypeScript's precedence finds the nodes of the type as they are nested
in it, and cannot find others.
-/

namespace Bindery.TypeScript

open Naming Text

/-- What is left of a type in its text. Names are those of the text. -/
inductive Erasure where
  | name (text : String) (indirection : Indirection)
  | readonly (inner : Erasure)
  | vector (element : Erasure)
  | optional (inner : Erasure)
  | function (arguments : List (String × Erasure)) (result : Erasure)
  deriving Repr

namespace Erasure

def guarded (isConst : Bool) (x : Erasure) : Erasure :=
  if isConst then .readonly x else x

/-- Of the templates that resolve, one leaves nothing: a shared pointer. -/
def ofTemplate (fullName : String) : List Erasure → Erasure
  | [x] =>
    if fullName = "std::vector" then .vector x
    else if fullName = "util::Optional" then .optional x
    else x
  | _ => .name fullName {}

end Erasure

def nameText (s : Spec) (fullName : String) : String :=
  if s.declares fullName then entityIdentifier fullName
  else (mapping.primitive? fullName).getD fullName

mutual
/-- The erasure of a type that resolves. -/
def erasure (s : Spec) : TypeExpr → Erasure
  | .name path isConst indirection =>
    (Erasure.name (nameText s (joinPath path)) indirection).guarded isConst
  | .template path arguments isConst =>
    (Erasure.ofTemplate (joinPath path) (erasureAll s arguments)).guarded isConst
  | .function arguments result isConst _ =>
    (Erasure.function (erasureArguments s arguments) (erasure s result)).guarded isConst

def erasureAll (s : Spec) : List TypeExpr → List Erasure
  | [] => []
  | t :: ts => erasure s t :: erasureAll s ts

def erasureArguments (s : Spec) : List (String × TypeExpr) → List (String × Erasure)
  | [] => []
  | (argument, t) :: rest => (camelCase argument, erasure s t) :: erasureArguments s rest
end

theorem erasureArguments_eq_map (s : Spec) (arguments : List (String × TypeExpr)) :
    erasureArguments s arguments = arguments.map fun a => (camelCase a.1, erasure s a.2) := by
  induction arguments with
  | nil => rfl
  | cons a arguments ih => simp [erasureArguments, ih]

/-! ## The phrase of an erasure -/

/-- Words with bars between them; what stands behind the last one is noted. -/
def Phrase.ofWords (trailers : List Trailer) : List String → Phrase
  | [] => .word "" trailers
  | [w] => .word w trailers
  | w :: next :: rest => .union (.word w []) (ofWords trailers (next :: rest))

/-- The comment that tells how a name is handed over. -/
def noteTrailers (i : Indirection) : List Trailer :=
  if i.names.isEmpty then [] else [.note (joined " " i.names)]

namespace Erasure

mutual
/-- How the text of an erasure is to be read: an array has its element in parentheses, and so has an
optional what it may be. -/
def phrase : Erasure → Phrase
  | .name text indirection => Phrase.ofWords (noteTrailers indirection) (pieces " | " text)
  | .readonly inner => .generic "Readonly" inner.phrase []
  | .vector element => .group element.phrase [.brackets]
  | .optional inner => .union (.group inner.phrase []) (.word "undefined" [])
  | .function arguments result => .function (phraseArguments arguments) result.phrase

def phraseArguments : List (String × Erasure) → List (String × Phrase)
  | [] => []
  | (argument, x) :: rest => (argument, x.phrase) :: phraseArguments rest
end

theorem phraseArguments_eq_map (arguments : List (String × Erasure)) :
    phraseArguments arguments = arguments.map fun a => (a.1, a.2.phrase) := by
  induction arguments with
  | nil => rfl
  | cons a arguments ih => simp [phraseArguments, ih]

@[induction_eliminator]
theorem induct {motive : Erasure → Prop}
    (name : ∀ text indirection, motive (.name text indirection))
    (readonly : ∀ inner, motive inner → motive (.readonly inner))
    (vector : ∀ element, motive element → motive (.vector element))
    (optional : ∀ inner, motive inner → motive (.optional inner))
    (function : ∀ arguments result, (∀ a ∈ arguments, motive a.2) → motive result →
      motive (.function arguments result))
    (x : Erasure) : motive x := by
  refine @Erasure.rec motive (fun xs => ∀ a ∈ xs, motive a.2) (fun a => motive a.2) name readonly
    vector optional function ?_ ?_ ?_ x
  · exact List.forall_mem_nil _
  · intro x xs hx hxs
    exact List.forall_mem_cons.2 ⟨hx, hxs⟩
  · intro name x hx
    exact hx

end Erasure

namespace Phrase

theorem ofWords_cases (trailers : List Trailer) (ws : List String) :
    (∃ text ms, ofWords trailers ws = .word text ms) ∨
      ∃ text rest, ofWords trailers ws = .union (.word text []) rest := by
  match ws with
  | [] => exact .inl ⟨_, _, rfl⟩
  | [w] => exact .inl ⟨_, _, rfl⟩
  | w :: next :: ws => exact .inr ⟨_, _, rfl⟩

theorem ofWords_inj {ms ns : List Trailer} {v w : String} {vs ws : List String}
    (h : ofWords ms (v :: vs) = ofWords ns (w :: ws)) : ms = ns ∧ v :: vs = w :: ws := by
  induction vs generalizing v w ws with
  | nil =>
      cases ws with
      | nil => simpa [ofWords, and_comm] using h
      | cons next ws => simp [ofWords] at h
  | cons next vs ih =>
      cases ws with
      | nil => simp [ofWords] at h
      | cons next' ws =>
          obtain ⟨hfirst, hrest⟩ := Phrase.union.inj h
          obtain ⟨rfl, hlater⟩ := ih hrest
          exact ⟨rfl, by rw [(Phrase.word.inj hfirst).1, hlater]⟩

theorem chars_ofWords (trailers : List Trailer) {ws : List String} (h : ws ≠ []) :
    (ofWords trailers ws).chars =
      join [' ', '|', ' '] (ws.map String.toList) ++ trailers.flatMap Trailer.chars := by
  match ws with
  | [] => exact absurd rfl h
  | [w] => rw [ofWords, chars]; rfl
  | w :: next :: ws =>
      rw [ofWords, chars, chars, chars_ofWords trailers (by simp), List.map_cons, List.map_cons,
        List.map_cons, join_cons_cons]
      simp

theorem isFunction_ofWords (trailers : List Trailer) (ws : List String) :
    (ofWords trailers ws).isFunction = false := by
  rcases ofWords_cases trailers ws with ⟨text, ms, h⟩ | ⟨text, rest, h⟩
  · rw [h]; rfl
  · rw [h]; rfl

theorem grammatical_ofWords {trailers : List Trailer} {ws : List String} (h : ws ≠ [])
    (hws : ∀ w ∈ ws, Word w) (htrailers : ∀ m ∈ trailers, m.Closed) :
    Grammatical (ofWords trailers ws) := by
  match ws with
  | [] => exact absurd rfl h
  | [w] => exact .word (hws w (by simp)) htrailers
  | w :: next :: ws =>
      obtain ⟨hw, hws⟩ := List.forall_mem_cons.1 hws
      exact .union rfl (.word hw nofun) (isFunction_ofWords _ _)
        (grammatical_ofWords (by simp) hws htrailers)

end Phrase

theorem noteTrailers_inj {i j : Indirection} (h : noteTrailers i = noteTrailers j) : i = j := by
  have hall : ∀ p r v p' r' v' : Bool, noteTrailers ⟨p, r, v⟩ = noteTrailers ⟨p', r', v'⟩ →
      p = p' ∧ r = r' ∧ v = v' := by
    decide +kernel
  obtain ⟨hp, hr, hv⟩ := hall _ _ _ _ _ _ h
  cases i
  cases j
  simp_all

theorem noteTrailers_closed (i : Indirection) : ∀ m ∈ noteTrailers i, m.Closed := by
  have hall : ∀ p r v : Bool, '*' ∉ (joined " " (Indirection.names ⟨p, r, v⟩)).toList := by
    decide +kernel
  intro m hm
  rw [noteTrailers] at hm
  split at hm
  · cases hm
  · rw [List.mem_singleton.1 hm]
    exact hall i.pointer i.reference i.rvalueReference

theorem joined_pieces (text : String) : joined " | " (pieces " | " text) = text := by
  have hmap : (pieces " | " text).map String.toList = splitOn " | ".toList text.toList := by
    simp [pieces, Function.comp_def]
  rw [joined, hmap, join_splitOn (by decide), String.ofList_toList]

theorem pieces_ne_nil (text : String) : pieces " | " text ≠ [] :=
  fun hnil => splitOn_ne_nil _ (List.map_eq_nil_iff.1 hnil)

theorem map_inj_of_mem {α β : Type} {f : α → β} {as bs : List α}
    (hf : ∀ a ∈ as, ∀ b, f a = f b → a = b) (h : as.map f = bs.map f) : as = bs := by
  induction as generalizing bs with
  | nil => simpa using h.symm
  | cons a as ih =>
      cases bs with
      | nil => cases h
      | cons b bs =>
          obtain ⟨hhead, htail⟩ := List.cons.inj h
          obtain ⟨ha, has⟩ := List.forall_mem_cons.1 hf
          rw [ha b hhead, ih has htail]

/-- No two erasures are read in the same way. -/
theorem Erasure.phrase_injective {x y : Erasure} (h : x.phrase = y.phrase) : x = y := by
  have hname (text : String) (i : Indirection) (y : Erasure)
      (h : (Erasure.name text i).phrase = y.phrase) : Erasure.name text i = y := by
    cases y with
    | name text' i' =>
        obtain ⟨v, vs, hvs⟩ := List.exists_cons_of_ne_nil (pieces_ne_nil text)
        obtain ⟨w, ws, hws⟩ := List.exists_cons_of_ne_nil (pieces_ne_nil text')
        rw [phrase, phrase, hvs, hws] at h
        obtain ⟨htrailers, hpieces⟩ := Phrase.ofWords_inj h
        rw [← hvs, ← hws] at hpieces
        rw [noteTrailers_inj htrailers, ← joined_pieces text, hpieces, joined_pieces]
    | _ =>
        rw [phrase, phrase] at h
        rcases Phrase.ofWords_cases (noteTrailers i) (pieces " | " text) with
          ⟨v, ms, hv⟩ | ⟨v, rest, hv⟩
        · simp [hv] at h
        · simp [hv] at h
  induction x generalizing y with
  | name text i => exact hname text i y h
  | readonly inner ih =>
      cases y with
      | name text i => exact (hname text i _ h.symm).symm
      | readonly inner' => rw [ih (Phrase.generic.inj h).2.1]
      | vector _ => cases h
      | optional _ => cases h
      | function _ _ => cases h
  | vector element ih =>
      cases y with
      | name text i => exact (hname text i _ h.symm).symm
      | readonly _ => cases h
      | vector element' => rw [ih (Phrase.group.inj h).1]
      | optional _ => cases h
      | function _ _ => cases h
  | optional inner ih =>
      cases y with
      | name text i => exact (hname text i _ h.symm).symm
      | readonly _ => cases h
      | vector _ => cases h
      | optional inner' => rw [ih (Phrase.group.inj (Phrase.union.inj h).1).1]
      | function _ _ => cases h
  | function arguments result ihargs ihresult =>
      cases y with
      | name text i => exact (hname text i _ h.symm).symm
      | readonly _ => cases h
      | vector _ => cases h
      | optional _ => cases h
      | function arguments' result' =>
          obtain ⟨hargs, hresult⟩ := Phrase.function.inj h
          rw [phraseArguments_eq_map, phraseArguments_eq_map] at hargs
          rw [ihresult hresult, map_inj_of_mem (fun a ha b hab => ?_) hargs]
          obtain ⟨hargument, hphrase⟩ := Prod.mk.inj hab
          exact Prod.ext hargument (ihargs a ha hphrase)

/-! ## Reading -/

/-- A text is that of a phrase, so TypeScript reads it as this phrase. -/
structure Reads (text : String) (x : Phrase) : Prop where
  grammatical : x.Grammatical
  chars : x.chars = text.toList

theorem Reads.eq {text : String} {x y : Phrase} (hx : Reads text x) (hy : Reads text y) : x = y :=
  Phrase.eq_of_chars_eq hx.grammatical hy.grammatical (hx.chars.trans hy.chars.symm)

theorem Reads.readonly {text : String} {x : Phrase} (h : Reads text x) :
    Reads (mapping.readonly text) (.generic "Readonly" x []) where
  grammatical := .generic (by decide) h.grammatical nofun
  chars := by simp [Phrase.chars, h.chars, mapping]

theorem Reads.vector {text : String} {x : Phrase} (h : Reads text x) :
    Reads ("(" ++ text ++ ")[]") (.group x [.brackets]) where
  grammatical := .group h.grammatical (by simp [Trailer.Closed])
  chars := by simp [Phrase.chars, Trailer.chars, h.chars]

theorem Reads.optional {text : String} {x : Phrase} (h : Reads text x) :
    Reads ("(" ++ text ++ ") | undefined") (.union (.group x []) (.word "undefined" [])) where
  grammatical := .union rfl (.group h.grammatical nofun) rfl (.word (by decide) nofun)
  chars := by simp [Phrase.chars, h.chars]

theorem Reads.function {α : Type} {xs : List α} {name text : α → String} {phrase : α → Phrase}
    {result : String} {x : Phrase} (hxs : ∀ a ∈ xs, Word (name a) ∧ Reads (text a) (phrase a))
    (hresult : Reads result x) :
    Reads (mapping.function (xs.map fun a => (name a, text a)) result)
      (.function (xs.map fun a => (name a, phrase a)) x) where
  grammatical := by
    refine .function ?_ ?_ hresult.grammatical
    · exact List.forall_mem_map.2 fun a ha => (hxs a ha).1
    · exact List.forall_mem_map.2 fun a ha => (hxs a ha).2.grammatical
  chars := by
    have hparameters : Phrase.parameterChars (xs.map fun a => (name a, phrase a)) =
        ((xs.map fun a => (name a, text a)).map fun a => a.1 ++ ": " ++ a.2).map
          String.toList := by
      rw [Phrase.parameterChars_eq_map, List.map_map, List.map_map, List.map_map]
      refine List.map_congr_left fun a ha => ?_
      simp [(hxs a ha).2.chars]
    rw [Phrase.chars, hparameters, hresult.chars]
    simp [mapping, parameters, joined, Function.comp_def]

theorem toList_annotated (s : Spec) (text : String) (i : Indirection) :
    ((resolver s).annotated text i.names).toList =
      text.toList ++ (noteTrailers i).flatMap Trailer.chars := by
  have hall : ∀ p r v : Bool,
      (noteTrailers ⟨p, r, v⟩).flatMap Trailer.chars =
        if (Indirection.names ⟨p, r, v⟩).isEmpty then []
        else (" " ++ comment (joined " " (Indirection.names ⟨p, r, v⟩))).toList := by
    decide +kernel
  rw [hall, Resolver.annotated]
  split
  · rw [List.append_nil]
  · change (text ++ " " ++ comment _).toList = _
    simp only [String.toList_append, List.append_assoc]

theorem reads_name (s : Spec) {text : String} (h : ∀ w ∈ pieces " | " text, Word w)
    (i : Indirection) :
    Reads ((resolver s).annotated text i.names) (Erasure.name text i).phrase where
  grammatical := Phrase.grammatical_ofWords (pieces_ne_nil text) h (noteTrailers_closed i)
  chars := by
    have hmap : (pieces " | " text).map String.toList = splitOn " | ".toList text.toList := by
      simp [pieces, Function.comp_def]
    rw [Erasure.phrase, Phrase.chars_ofWords _ (pieces_ne_nil text), toList_annotated, hmap]
    exact congrArg (· ++ _) (join_splitOn (by decide) _)

/-! ## Types that can be read -/

/-- Declared names are words of ASCII with scopes, arguments are named by words, and no function
promises not to throw, of which the text would tell behind its result. -/
def Legible (s : Spec) (t : TypeExpr) : Prop :=
  t.Legible s fun arguments isNoExcept =>
    isNoExcept = false ∧ ∀ a ∈ arguments, Word (camelCase a.1)

theorem words_nameText {s : Spec} {fullName : String}
    (hpath : s.declares fullName = true → IdentifierPath fullName)
    (hresolves : fullName ∈ s.declaredNames ∨ fullName ∈ mapping.vocabulary.primitives) :
    ∀ w ∈ pieces " | " (nameText s fullName), Word w := by
  rw [nameText]
  by_cases hdeclared : s.declares fullName = true
  · rw [if_pos hdeclared]
    have hname := hpath hdeclared
    have hword : Word (entityIdentifier fullName) := ⟨hname.entityIdentifier_ne_empty,
      hname.forall_entityIdentifier (p := fun c => isMark c = false) (by decide +kernel)⟩
    have hbar : '|' ∉ (entityIdentifier fullName).toList := fun hmem =>
      absurd (hword.chars '|' hmem) (by decide)
    rw [pieces, splitOn_of_not_mem (x := '|') (by decide) hbar]
    simpa using hword
  · rw [if_neg hdeclared]
    have hall : ∀ entry ∈ mapping.primitives, ∀ w ∈ pieces " | " entry.2, Word w := by
      decide +kernel
    rcases hresolves with hmem | hmem
    · exact absurd (by simpa [Spec.declares] using hmem) hdeclared
    · obtain ⟨text, htext⟩ := Option.isSome_iff_exists.1 (Vocabulary.mem_primitives.1 hmem)
      rw [htext, Option.getD_some]
      exact hall (fullName, text) (mem_of_lookup_eq_some htext)

/-! ## The text of a type -/

theorem Reads.guarded {s : Spec} {text : String} {x : Erasure} (h : Reads text x.phrase)
    (isConst : Bool) : Reads ((resolver s).guarded isConst text) (x.guarded isConst).phrase := by
  cases isConst with
  | false => exact h
  | true => exact h.readonly

theorem Reads.template {fullName : String} {rule : TemplateRule}
    (hrule : (fullName, rule) ∈ mapping.templates) {text : String} {x : Erasure}
    (h : Reads text x.phrase) :
    Reads (rule.render [text]) (Erasure.ofTemplate fullName [x]).phrase := by
  simp only [mapping, List.mem_cons, Prod.mk.injEq, List.not_mem_nil, or_false] at hrule
  rcases hrule with ⟨rfl, rfl⟩ | ⟨rfl, rfl⟩ | ⟨rfl, rfl⟩
  · exact h.vector
  · exact h.optional
  · exact h

/-- TypeScript reads the text of a type as the phrase of its erasure. -/
theorem reads_resolve {s : Spec} {t : TypeExpr}
    (hmisses : t.misses s mapping.vocabulary "" = []) (hlegible : Legible s t) :
    Reads ((resolver s).resolve t).value (erasure s t).phrase := by
  induction t with
  | name path isConst indirection =>
      have hresolves := TypeExpr.nameMisses_eq_nil_iff.1 hmisses
      have hvalue : ((resolver s).resolveName (joinPath path)).value =
          nameText s (joinPath path) := by
        rw [Resolver.resolveName, nameText, spec_resolver, mapping_resolver]
        by_cases hdeclared : s.declares (joinPath path) = true
        · rw [if_pos hdeclared, if_pos hdeclared]
          rfl
        · rw [if_neg hdeclared, if_neg hdeclared]
          rcases hresolves with hmem | hmem
          · exact absurd (by simpa [Spec.declares] using hmem) hdeclared
          · obtain ⟨text, htext⟩ := Option.isSome_iff_exists.1 (Vocabulary.mem_primitives.1 hmem)
            rw [htext]
            rfl
      have hwords := words_nameText (TypeExpr.legible_name.1 hlegible) hresolves
      rw [Resolver.resolve, hvalue, erasure]
      exact (reads_name s hwords indirection).guarded isConst
  | template path arguments isConst ih =>
      obtain ⟨hlookup, hinner⟩ := TypeExpr.misses_template_eq_nil_iff.1 hmisses
      obtain ⟨rule, a, hrule, rfl, hvalue⟩ :=
        Resolver.value_resolve_unary (r := resolver s) (by simp [mapping, Mapping.unary]) hlookup
          isConst
      have ha := ih a (by simp) (hinner a (by simp))
        (TypeExpr.legible_template.1 hlegible a (by simp))
      rw [hvalue, erasure]
      exact (ha.template hrule).guarded isConst
  | function arguments result isConst isNoExcept hargs hresult =>
      obtain ⟨harguments, hresult'⟩ := TypeExpr.misses_function_eq_nil_iff.1 hmisses
      obtain ⟨⟨rfl, hwords⟩, hlegibles, hlegible'⟩ := TypeExpr.legible_function.1 hlegible
      have hphrase : (Erasure.function (erasureArguments s arguments) (erasure s result)).phrase =
          .function (arguments.map fun a => (camelCase a.1, (erasure s a.2).phrase))
            (erasure s result).phrase := by
        rw [Erasure.phrase, Erasure.phraseArguments_eq_map, erasureArguments_eq_map, List.map_map]
        rfl
      have hreads : Reads (mapping.function
          (arguments.map fun a => (camelCase a.1, ((resolver s).resolve a.2).value))
          ((resolver s).resolve result).value)
          (Erasure.function (erasureArguments s arguments) (erasure s result)).phrase := by
        rw [hphrase]
        exact .function
          (fun a ha => ⟨hwords a ha, hargs a ha (harguments a ha) (hlegibles a ha)⟩)
          (hresult hresult' hlegible')
      rw [Resolver.resolve, Resolver.value_resolveArguments, erasure]
      exact hreads.guarded isConst

/-- The text of a type that resolves, and promises nothing about exceptions, tells its erasure:
TypeScript reads it as the phrase of that erasure and as no other phrase, and types of one text have
one erasure. -/
theorem erasure_eq_of_value_eq (s : Spec) (a b : TypeExpr) (placeA placeB : String)
    (hissuesA : (((resolver s).located placeA).resolve a).issues = [])
    (hissuesB : (((resolver s).located placeB).resolve b).issues = [])
    (hlegibleA : Legible s a) (hlegibleB : Legible s b) :
    (∀ x : Phrase, Reads (((resolver s).located placeA).resolve a).value x ↔
      x = (erasure s a).phrase) ∧
    ((((resolver s).located placeA).resolve a).value =
        (((resolver s).located placeB).resolve b).value → erasure s a = erasure s b) := by
  have hreads {t : TypeExpr} {place : String}
      (hissues : (((resolver s).located place).resolve t).issues = []) (h : Legible s t) :
      Reads (((resolver s).located place).resolve t).value (erasure s t).phrase := by
    rw [Resolver.issues_resolve] at hissues
    rw [Resolver.value_located]
    exact reads_resolve ((TypeExpr.misses_eq_nil_iff place t).1 hissues) h
  have ha := hreads hissuesA hlegibleA
  have hb := hreads hissuesB hlegibleB
  refine ⟨fun x => ⟨fun hx => hx.eq ha, fun hx => hx ▸ ha⟩, fun heq => ?_⟩
  rw [heq] at ha
  exact Erasure.phrase_injective (ha.eq hb)

/-- A list of functions that may be missing; their argument is handed over by a pointer. -/
def visitors (argument : String) : TypeExpr :=
  .applied "std::vector" [.applied "util::Optional" [
    .function [(argument, .name ["ns", "Foo"] false { pointer := true })] (.named "StringData")
      true false]]

theorem legible_visitors {argument : String} (h : Word (camelCase argument)) :
    Legible scopedClassSpec (visitors argument) := by
  have hfoo : IdentifierPath (joinPath ["ns", "Foo"]) := by decide +kernel
  have hprimitive : scopedClassSpec.declares (joinPath (splitPath "StringData")) = false := by
    decide +kernel
  refine TypeExpr.legible_template.2 (List.forall_mem_singleton.2 ?_)
  refine TypeExpr.legible_template.2 (List.forall_mem_singleton.2 ?_)
  refine TypeExpr.legible_function.2
    ⟨⟨rfl, List.forall_mem_singleton.2 h⟩, List.forall_mem_singleton.2 ?_, ?_⟩
  · exact TypeExpr.legible_name.2 fun _ => hfoo
  · exact TypeExpr.legible_name.2 fun hdeclared => absurd hdeclared (by simp [hprimitive])

/-- Neither a shared pointer nor the case of an argument is told. -/
theorem erasure_eq_of_value_eq_visitors :
    let a := TypeExpr.applied "std::shared_ptr" [visitors "next_item"]
    let b := visitors "nextItem"
    (((resolver scopedClassSpec).located "").resolve a).value =
      "((Readonly<(nextItem: ns_Foo /* pointer */) => string | null>) | undefined)[]" ∧
    erasure scopedClassSpec a = erasure scopedClassSpec b := by
  intro a b
  have htext : (((resolver scopedClassSpec).located "").resolve a).value =
      "((Readonly<(nextItem: ns_Foo /* pointer */) => string | null>) | undefined)[]" := by
    decide +kernel
  have hb : Legible scopedClassSpec b := legible_visitors (by decide +kernel)
  have ha : Legible scopedClassSpec a := by
    refine TypeExpr.legible_template.2 (List.forall_mem_singleton.2 (legible_visitors ?_))
    decide +kernel
  refine ⟨htext, ?_⟩
  refine (erasure_eq_of_value_eq scopedClassSpec a b "" "" ?_ ?_ ha hb).2 ?_
  · decide +kernel
  · decide +kernel
  · rw [htext]
    decide +kernel

end Bindery.TypeScript
