import Bindery.Naming
import Bindery.Proofs.Text.Case
import Bindery.Proofs.Text.Split
import Bindery.Spec.TypeExpr
import Mathlib.Data.List.Infix

/-!
# Plain names

Names of letters, digits and underscores stay so in every case, and as identifiers of entities.
-/

namespace Bindery.Naming

/-- Letters and digits of ASCII, and the underscore. -/
def isPlainChar (c : Char) : Bool := c.isAlphanum || c == '_'

/-- What placeholders begin with. -/
def unknownWord : List Char := "unknown".toList

/-- A name of such characters in which nothing reads `unknown`, in any case. -/
structure Plain (name : String) : Prop where
  chars : ∀ c ∈ name.toList, isPlainChar c = true
  noUnknown : ¬ unknownWord <:+: name.toList.map Char.toLower

instance (name : String) : Decidable (Plain name) :=
  decidable_of_iff (name.toList.all isPlainChar = true ∧
      ¬ unknownWord <:+: name.toList.map Char.toLower)
    ⟨fun h => ⟨List.all_eq_true.1 h.1, h.2⟩, fun h => ⟨List.all_eq_true.2 h.chars, h.noUnknown⟩⟩

/-- A name with scopes, each of which is plain. -/
def PlainPath (name : String) : Prop :=
  ∀ part ∈ Text.pieces scopeSeparator name, Plain part

instance (name : String) : Decidable (PlainPath name) :=
  inferInstanceAs (Decidable (∀ part ∈ Text.pieces scopeSeparator name, Plain part))

/-- Scopes and a name: each has some letters, digits or underscores, and no other characters. -/
def IdentifierPath (name : String) : Prop :=
  ∀ part ∈ Text.pieces scopeSeparator name,
    part ≠ "" ∧ ∀ c ∈ part.toList, isPlainChar c = true

instance (name : String) : Decidable (IdentifierPath name) :=
  decidable_of_iff (∀ part ∈ Text.pieces scopeSeparator name,
      part ≠ "" ∧ part.toList.all isPlainChar = true)
    (forall₂_congr fun _ _ => and_congr_right fun _ => List.all_eq_true)

theorem val_le_of_isAlphanum {c : Char} (h : c.isAlphanum = true) : c.val ≤ 'z'.val := by
  rcases Bool.or_eq_true_iff.1 h with h | h
  · rcases Bool.or_eq_true_iff.1 h with h | h
    · exact UInt32.le_trans (of_decide_eq_true h).2 (by decide)
    · exact of_decide_eq_true (Bool.and_eq_true_iff.1 h).2
  · exact UInt32.le_trans (of_decide_eq_true (Bool.and_eq_true_iff.1 h).2) (by decide)

theorem isPlainChar_lt {c : Char} (h : isPlainChar c = true) : c.toNat < 128 := by
  have hle : c.val ≤ 'z'.val := by
    rcases Bool.or_eq_true_iff.1 h with h | h
    · exact val_le_of_isAlphanum h
    · rw [beq_iff_eq.1 h]
      decide
  exact Nat.lt_of_le_of_lt (UInt32.le_iff_toNat_le.1 hle) (by decide)

theorem isPlainChar_cases {p : Char → Prop} [DecidablePred p]
    (h : ∀ n : Fin 128, isPlainChar (Char.ofNat n) = true → p (Char.ofNat n)) {c : Char}
    (hc : isPlainChar c = true) : p c :=
  Text.ascii_cases (p := fun c => isPlainChar c = true → p c) h (isPlainChar_lt hc) hc

theorem isPlainChar_of_mem_toLower {c x : Char} (hc : isPlainChar c = true)
    (hx : x ∈ Text.toLower c) : isPlainChar x = true := by
  rw [Text.toLower, if_pos (isPlainChar_lt hc), List.mem_singleton] at hx
  subst hx
  exact isPlainChar_cases (p := fun c => isPlainChar c.toLower = true) (by decide +kernel) hc

theorem isPlainChar_of_mem_toUpper {c x : Char} (hc : isPlainChar c = true)
    (hx : x ∈ Text.toUpper c) : isPlainChar x = true := by
  rw [Text.toUpper, if_pos (isPlainChar_lt hc), List.mem_singleton] at hx
  subst hx
  exact isPlainChar_cases (p := fun c => isPlainChar c.toUpper = true) (by decide +kernel) hc

/-! ## Cases -/

/-- What every first letter of a word has, and every further letter keeps, all words have. -/
theorem forall_mem_wordsFrom {p : List Char → Prop} {previous : Option Char}
    {current cs : List Char}
    (hfirst : ∀ c ∈ cs, isSeparator c = false → p (Text.toLower c))
    (hmore : ∀ word, p word → ∀ c ∈ cs, isSeparator c = false → p (word ++ Text.toLower c))
    (hcurrent : current ≠ [] → p current) : ∀ word ∈ wordsFrom previous current cs, p word := by
  induction cs generalizing previous current with
  | nil =>
      intro word hword
      rw [wordsFrom] at hword
      cases current with
      | nil => cases hword
      | cons x current =>
          obtain rfl : word = x :: current := by simpa using hword
          exact hcurrent (List.cons_ne_nil x current)
  | cons c cs ih =>
      have hlater {previous : Option Char} {current : List Char} (h : current ≠ [] → p current) :=
        @ih previous current (fun d hd => hfirst d (List.mem_cons_of_mem c hd))
          (fun word hword d hd => hmore word hword d (List.mem_cons_of_mem c hd)) h
      have hnone : ∀ word ∈ wordsFrom (some c) [] cs, p word := hlater fun h => absurd rfl h
      rw [wordsFrom]
      cases hseparator : isSeparator c with
      | true =>
          rw [if_pos rfl]
          split
          · exact hnone
          next hempty =>
            exact List.forall_mem_cons.2 ⟨hcurrent (by simpa using hempty), hnone⟩
      | false =>
          have hc := hfirst c (by simp) hseparator
          rw [if_neg Bool.false_ne_true]
          split
          next hbegins =>
            simp only [Bool.and_eq_true, Bool.not_eq_true', List.isEmpty_eq_false_iff] at hbegins
            exact List.forall_mem_cons.2 ⟨hcurrent hbegins.1.2, hlater fun _ => hc⟩
          · refine hlater fun _ => ?_
            by_cases hempty : current = []
            · rwa [hempty, List.nil_append]
            · exact hmore current (hcurrent hempty) c (by simp) hseparator

/-- Words have no characters but those of the text, in lower case. -/
theorem mem_wordsFrom {previous : Option Char} {current cs word : List Char} {x : Char}
    (hword : word ∈ wordsFrom previous current cs) (hx : x ∈ word) :
    x ∈ current ∨ ∃ c ∈ cs, x ∈ Text.toLower c := by
  refine forall_mem_wordsFrom (p := fun word => ∀ x ∈ word, x ∈ current ∨
    ∃ c ∈ cs, x ∈ Text.toLower c) ?_ ?_ (fun _ x hx => .inl hx) word hword x hx
  · exact fun c hc _ x hx => .inr ⟨c, hc, hx⟩
  · intro word hword c hc _ x hx
    rcases List.mem_append.1 hx with hx | hx
    · exact hword x hx
    · exact .inr ⟨c, hc, hx⟩

/-- Camel case has no characters but those of the name, in lower case, and the upper case of
some. -/
theorem mem_camelCase {name : String} {x : Char} (hx : x ∈ (camelCase name).toList) :
    ∃ c ∈ name.toList, x ∈ Text.toLower c ∨ ∃ d ∈ Text.toLower c, x ∈ Text.toUpper d := by
  have hlower : ∀ word ∈ words name.toList, ∀ d ∈ word, ∃ c ∈ name.toList, d ∈ Text.toLower c :=
    fun word hword d hd => (mem_wordsFrom hword hd).resolve_left List.not_mem_nil
  rw [camelCase, String.toList_ofList] at hx
  cases hw : words name.toList with
  | nil => simp [hw, camelWords] at hx
  | cons word rest =>
      rw [hw, camelWords] at hx
      rw [hw] at hlower
      rcases List.mem_append.1 hx with hx | hx
      · obtain ⟨c, hc, hx⟩ := hlower word (by simp) x hx
        exact ⟨c, hc, .inl hx⟩
      · obtain ⟨later, hlater, hx⟩ := List.mem_flatMap.1 hx
        have hword := hlower later (List.mem_cons_of_mem word hlater)
        cases later with
        | nil => simp [capitalized] at hx
        | cons d ds =>
            rcases List.mem_append.1 hx with hx | hx
            · obtain ⟨c, hc, hd⟩ := hword d (by simp)
              exact ⟨c, hc, .inr ⟨d, hd, hx⟩⟩
            · obtain ⟨c, hc, hx⟩ := hword x (List.mem_cons_of_mem d hx)
              exact ⟨c, hc, .inl hx⟩

theorem isPlainChar_of_mem_camelCase {name : String}
    (h : ∀ c ∈ name.toList, isPlainChar c = true) :
    ∀ x ∈ (camelCase name).toList, isPlainChar x = true := by
  intro x hx
  obtain ⟨c, hc, hx | ⟨d, hd, hx⟩⟩ := mem_camelCase hx
  · exact isPlainChar_of_mem_toLower (h c hc) hx
  · exact isPlainChar_of_mem_toUpper (isPlainChar_of_mem_toLower (h c hc) hd) hx

theorem isPlainChar_of_mem_snakeCase {name : String}
    (h : ∀ c ∈ name.toList, isPlainChar c = true) :
    ∀ x ∈ (snakeCase name).toList, isPlainChar x = true := by
  intro x hx
  rw [snakeCase, String.toList_ofList] at hx
  rcases Text.mem_join hx with hx | ⟨word, hword, hx⟩
  · rw [List.mem_singleton.1 hx]
    decide
  · obtain ⟨c, hc, hx⟩ := (mem_wordsFrom hword hx).resolve_left List.not_mem_nil
    exact isPlainChar_of_mem_toLower (h c hc) hx

section

variable {name : String} {x : Char}

/-- Cases make no blank, no slash and nothing before them. -/
theorem not_mem_camelCase (hpos : 0 < x.toNat) (hlow : x.toNat ≤ '/'.toNat)
    (h : x ∉ name.toList) : x ∉ (camelCase name).toList := by
  intro hmem
  obtain ⟨c, hc, hx | ⟨d, hd, hx⟩⟩ := mem_camelCase hmem
  · exact h (Text.eq_of_mem_toLower hpos hlow hx ▸ hc)
  · rw [Text.eq_of_mem_toUpper hpos hlow hx] at hd
    exact h (Text.eq_of_mem_toLower hpos hlow hd ▸ hc)

theorem not_mem_snakeCase (hpos : 0 < x.toNat) (hlow : x.toNat ≤ '/'.toNat)
    (h : x ∉ name.toList) : x ∉ (snakeCase name).toList := by
  intro hmem
  rw [snakeCase, String.toList_ofList] at hmem
  rcases Text.mem_join hmem with hx | ⟨word, hword, hx⟩
  · rw [List.mem_singleton.1 hx] at hlow
    exact absurd hlow (by decide)
  · obtain ⟨c, hc, hx⟩ := (mem_wordsFrom hword hx).resolve_left List.not_mem_nil
    exact h (Text.eq_of_mem_toLower hpos hlow hx ▸ hc)

end

/-! ## Entities -/

/-- A name without scopes is one part of itself. -/
theorem Plain.path {name : String} (h : Plain name) : PlainPath name := by
  have hcolon : ':' ∉ name.toList := fun hmem => absurd (h.chars ':' hmem) (by decide)
  intro part hpart
  rw [Text.pieces, Text.splitOn_of_not_mem (x := ':') (by decide) hcolon] at hpart
  obtain rfl : part = name := by simpa using hpart
  exact h

theorem entityIdentifier_toList (name : String) :
    (entityIdentifier name).toList =
      Text.join ['_'] (Text.splitOn scopeSeparator.toList name.toList) := by
  rw [entityIdentifier, Text.replaced, String.toList_ofList]
  rfl

theorem not_mem_entityIdentifier {name : String} {x : Char} (hx : x ≠ '_') (h : x ∉ name.toList) :
    x ∉ (entityIdentifier name).toList := by
  intro hmem
  rw [entityIdentifier, Text.replaced, String.toList_ofList] at hmem
  rcases Text.mem_replace hmem with hmem | hmem
  · exact hx (List.mem_singleton.1 hmem)
  · exact h hmem

theorem PlainPath.plain {name : String} (h : PlainPath name) {part : List Char}
    (hpart : part ∈ Text.splitOn scopeSeparator.toList name.toList) : Plain (String.ofList part) :=
  h _ (List.mem_map_of_mem hpart)

/-- Underscores take the place of scope separators; all else stays. -/
theorem isPlainChar_of_mem_entityIdentifier_of_pieces {name : String}
    (h : ∀ part ∈ Text.pieces scopeSeparator name, ∀ c ∈ part.toList, isPlainChar c = true) :
    ∀ x ∈ (entityIdentifier name).toList, isPlainChar x = true := by
  intro x hx
  rw [entityIdentifier_toList] at hx
  rcases Text.mem_join hx with hx | ⟨part, hpart, hx⟩
  · rw [List.mem_singleton.1 hx]
    decide
  · exact h (String.ofList part) (List.mem_map_of_mem hpart) x (by rwa [String.toList_ofList])

theorem isPlainChar_of_mem_entityIdentifier {name : String} (h : PlainPath name) :
    ∀ x ∈ (entityIdentifier name).toList, isPlainChar x = true :=
  isPlainChar_of_mem_entityIdentifier_of_pieces fun part hpart => (h part hpart).chars

theorem IdentifierPath.isPlainChar {name : String} (h : IdentifierPath name) :
    ∀ x ∈ (entityIdentifier name).toList, isPlainChar x = true :=
  isPlainChar_of_mem_entityIdentifier_of_pieces fun part hpart => (h part hpart).2

theorem IdentifierPath.forall_entityIdentifier {name : String} (h : IdentifierPath name)
    {p : Char → Prop} [DecidablePred p]
    (hp : ∀ n : Fin 128, Naming.isPlainChar (Char.ofNat n) = true → p (Char.ofNat n)) :
    ∀ c ∈ (entityIdentifier name).toList, p c :=
  fun c hc => isPlainChar_cases hp (h.isPlainChar c hc)

theorem IdentifierPath.entityIdentifier_ne_empty {name : String} (h : IdentifierPath name) :
    entityIdentifier name ≠ "" := by
  have hparts := @Text.splitOn_ne_nil scopeSeparator.toList name.toList
  obtain ⟨part, parts, hcons⟩ := List.exists_cons_of_ne_nil hparts
  have hpart : String.ofList part ≠ "" :=
    (h _ (List.mem_map_of_mem (hcons ▸ List.mem_cons_self))).1
  have hnil : part ≠ [] := fun hnil => hpart (by rw [hnil])
  intro hempty
  have hlist := entityIdentifier_toList name
  rw [hempty, hcons] at hlist
  cases parts with
  | nil => exact hnil hlist.symm
  | cons next parts =>
      rw [Text.join_cons_cons] at hlist
      exact hnil (List.append_eq_nil_iff.1 hlist.symm).1

theorem not_unknown_suffix_entityIdentifier {name : String} (h : PlainPath name) :
    ¬ unknownWord <:+ (entityIdentifier name).toList := by
  intro hsuffix
  rw [entityIdentifier_toList] at hsuffix
  obtain ⟨part, hpart, hsuffix⟩ := Text.suffix_of_suffix_join (by decide) (by decide) hsuffix
  have hlower : unknownWord.map Char.toLower = unknownWord := by decide
  have hinfix := (hsuffix.map Char.toLower).isInfix
  rw [hlower] at hinfix
  exact (h.plain hpart).noUnknown (by rwa [String.toList_ofList])

end Bindery.Naming
