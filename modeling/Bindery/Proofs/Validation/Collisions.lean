import Bindery.Validation
import Mathlib.Data.Set.Function

/-!
# Collisions and repeated declarations

The checks go through a list with what they have seen. Here they are stated without that memory:
which names a check reports, and when it reports none.
-/

namespace Bindery.Validation

/-! ## Names that become one -/

/-- The violation for a name, if the first of `names` with the same rendering is another one. -/
def collision? (scope : String) (render : String → String) (names : List String) (name : String) :
    Option Violation :=
  (names.find? fun n => render n = render name).bind fun first =>
    if first = name then none else some (.nameCollision scope first name (render name))

/-- `seen` knows, for each rendering, the first of the names `before` that has it. -/
def Remembers (render : String → String) (seen : List (String × String)) (before : List String) :
    Prop :=
  ∀ rendered, seen.lookup rendered = before.find? fun n => render n = rendered

theorem Remembers.cons {render seen before name} (h : Remembers render seen before)
    (hnew : seen.lookup (render name) = none) :
    Remembers render ((render name, name) :: seen) (before ++ [name]) := by
  intro rendered
  rw [List.find?_append, ← h rendered]
  by_cases heq : rendered = render name
  · subst heq
    simp [hnew]
  · have hne : (rendered == render name) = false := by simpa using heq
    simp [List.lookup_cons, hne, Ne.symm heq]

theorem Remembers.append {render seen before name first} (h : Remembers render seen before)
    (hold : seen.lookup (render name) = some first) :
    Remembers render seen (before ++ [name]) := by
  intro rendered
  rw [List.find?_append, ← h rendered]
  by_cases heq : render name = rendered
  · subst heq
    simp [hold]
  · simp [heq]

theorem collisionsAfter_eq_filterMap {scope render seen} (before names : List String)
    (h : Remembers render seen before) :
    collisionsAfter scope render seen names =
      names.filterMap (collision? scope render (before ++ names)) := by
  induction names generalizing seen before with
  | nil => rfl
  | cons name names ih =>
      have hassoc : before ++ name :: names = (before ++ [name]) ++ names := by simp
      have hfind : (before ++ name :: names).find? (fun n => render n = render name) =
          (seen.lookup (render name)).or (some name) := by
        rw [List.find?_append, ← h (render name)]
        simp
      rw [collisionsAfter, List.filterMap_cons]
      cases hl : seen.lookup (render name) with
      | none =>
          have hnone : collision? scope render (before ++ name :: names) name = none := by
            simp [collision?, hfind, hl]
          rw [hnone, hassoc]
          exact ih _ (h.cons hl)
      | some first =>
          have hrest := ih _ (h.append hl)
          rw [← hassoc] at hrest
          by_cases heq : first = name
          · simp [collision?, hfind, hl, heq, hrest]
          · simp [collision?, hfind, hl, heq, hrest]

/-- Each name is judged by itself: against the first of all names that becomes the same. -/
theorem collisions_eq_filterMap (scope : String) (render : String → String) (names : List String) :
    collisions scope render names = names.filterMap (collision? scope render names) :=
  collisionsAfter_eq_filterMap [] names fun _ => rfl

theorem exists_first (render : String → String) {names : List String} {name : String}
    (h : name ∈ names) :
    ∃ first, names.find? (fun n => render n = render name) = some first := by
  rw [← Option.isSome_iff_exists, List.find?_isSome]
  exact ⟨name, h, by simp⟩

theorem collisions_eq_nil_iff {scope render names} :
    collisions scope render names = [] ↔ Set.InjOn render {n | n ∈ names} := by
  rw [collisions_eq_filterMap, List.filterMap_eq_nil_iff]
  constructor
  · intro h a ha b hb hab
    obtain ⟨first, hfirst⟩ := exists_first render ha
    have hfa : first = a := by simpa [collision?, hfirst] using h a ha
    have hfb : first = b := by simpa [collision?, ← hab, hfirst] using h b hb
    rw [← hfa, hfb]
  · intro h name hname
    cases hf : names.find? (fun n => render n = render name) with
    | none => simp [collision?, hf]
    | some first =>
        have hr : render first = render name := by simpa using List.find?_some hf
        have : first = name := h (List.mem_of_find?_eq_some hf) hname hr
        simp [collision?, hf, this]

/-! ## Names that are declared again -/

theorem lookup_eq_none_iff {seen : List (String × EntityKind)} {name : String} :
    seen.lookup name = none ↔ name ∉ seen.map Prod.fst := by
  rw [List.lookup_eq_none_iff, List.mem_map]
  constructor
  · rintro h ⟨entry, hentry, rfl⟩
    simpa using h entry hentry
  · intro h entry hentry
    simpa using fun heq => h ⟨entry, hentry, Eq.symm heq⟩

theorem duplicatesAfter_eq_nil_iff {seen : List (String × EntityKind)} (declarations) :
    duplicatesAfter seen declarations = [] ↔
      (declarations.map Prod.fst).Nodup ∧ ∀ d ∈ declarations, d.1 ∉ seen.map Prod.fst := by
  induction declarations generalizing seen with
  | nil => simp [duplicatesAfter]
  | cons d rest ih =>
      obtain ⟨name, kind⟩ := d
      rw [duplicatesAfter]
      cases hl : seen.lookup name with
      | none =>
          have hnew := lookup_eq_none_iff.1 hl
          simp only [ih, List.map_cons, List.mem_cons, not_or, List.nodup_cons, forall_eq_or_imp]
          constructor
          · rintro ⟨hnodup, hseen⟩
            refine ⟨⟨?_, hnodup⟩, hnew, fun d hd => (hseen d hd).2⟩
            intro hmem
            obtain ⟨d, hd, rfl⟩ := List.mem_map.1 hmem
            exact (hseen d hd).1 rfl
          · rintro ⟨⟨hname, hnodup⟩, _, hseen⟩
            refine ⟨hnodup, fun d hd => ⟨?_, hseen d hd⟩⟩
            rintro rfl
            exact hname (List.mem_map_of_mem hd)
      | some first =>
          have hold : name ∈ seen.map Prod.fst := by
            by_contra hnot
            rw [lookup_eq_none_iff.2 hnot] at hl
            cases hl
          refine iff_of_false (by simp) ?_
          rintro ⟨_, hseen⟩
          exact hseen _ List.mem_cons_self hold

theorem mem_distinctAfter {seen names : List String} {name : String} :
    name ∈ distinctAfter seen names ↔ name ∈ names ∧ name ∉ seen := by
  induction names generalizing seen with
  | nil => simp [distinctAfter]
  | cons n names ih =>
      rw [distinctAfter]
      by_cases h : n ∈ seen
      · simp only [List.contains_eq_mem, h, decide_true, if_true, ih, List.mem_cons]
        constructor
        · rintro ⟨hmem, hseen⟩
          exact ⟨.inr hmem, hseen⟩
        · rintro ⟨rfl | hmem, hseen⟩
          · exact absurd h hseen
          · exact ⟨hmem, hseen⟩
      · simp only [List.contains_eq_mem, h, decide_false, Bool.false_eq_true, if_false,
          List.mem_cons, ih, not_or]
        constructor
        · rintro (rfl | ⟨hmem, _, hseen⟩)
          · exact ⟨.inl rfl, h⟩
          · exact ⟨.inr hmem, hseen⟩
        · rintro ⟨rfl | hmem, hseen⟩
          · exact .inl rfl
          · by_cases hn : name = n
            · exact .inl hn
            · exact .inr ⟨hmem, hn, hseen⟩

theorem ofDeclarations_eq_nil_iff {s : Spec} :
    ofDeclarations s = [] ↔
      s.declaredNames.Nodup ∧ Set.InjOn entityIdentifier {n | n ∈ s.declaredNames} := by
  rw [ofDeclarations, List.append_eq_nil_iff, duplicatesAfter_eq_nil_iff, collisions_eq_nil_iff]
  simp [mem_distinctAfter, Spec.declaredNames]

end Bindery.Validation
