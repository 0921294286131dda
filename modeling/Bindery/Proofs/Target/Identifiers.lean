import Bindery.Proofs.Naming
import Bindery.Target.Registry

/-!
# Identifiers out of identifiers

`usable_iff`: what targets make of an identifier is one again. There are two exceptions: cases drop
the underscores in front of a name, and nothing escapes the identifiers of entities.
-/

namespace Bindery

namespace Naming

/-- Letters, digits and underscores of ASCII, at least one, and the first is no digit. -/
structure IsIdentifier (name : String) : Prop where
  chars : ∀ c ∈ name.toList, isPlainChar c = true
  start : name.toList.head?.any (fun c => !c.isDigit) = true

instance (name : String) : Decidable (IsIdentifier name) :=
  decidable_of_iff (name.toList.all isPlainChar = true ∧
      name.toList.head?.any (fun c => !c.isDigit) = true)
    ⟨fun h => ⟨List.all_eq_true.1 h.1, h.2⟩, fun h => ⟨List.all_eq_true.2 h.chars, h.start⟩⟩

/-- The first character that is no underscore. -/
def lead? (cs : List Char) : Option Char :=
  (cs.dropWhile (· == '_')).head?

/-- Behind the underscores in front there is something, and it is no digit. -/
def StartsWord (name : String) : Prop :=
  (lead? name.toList).any (fun c => !c.isDigit) = true

instance (name : String) : Decidable (StartsWord name) :=
  inferInstanceAs (Decidable ((lead? name.toList).any (fun c => !c.isDigit) = true))

/-! ## Words -/

/-- A word that has been begun keeps its first character. -/
theorem exists_wordsFrom_cons (previous : Option Char) (x : Char) (current cs : List Char) :
    ∃ word later, wordsFrom previous (x :: current) cs = (x :: word) :: later := by
  induction cs generalizing previous current with
  | nil => exact ⟨current, [], rfl⟩
  | cons c cs ih =>
      simp only [wordsFrom, List.isEmpty_cons, Bool.false_eq_true, if_false]
      split
      · exact ⟨current, _, rfl⟩
      split
      · exact ⟨current, _, rfl⟩
      · exact ih (some c) (current ++ Text.toLower c)

theorem isSeparator_iff {c : Char} (h : isPlainChar c = true) : isSeparator c = true ↔ c = '_' :=
  isPlainChar_cases (p := fun c => isSeparator c = true ↔ c = '_') (by decide +kernel) h

theorem toLower_of_isPlainChar {c : Char} (h : isPlainChar c = true) :
    Text.toLower c = [c.toLower] :=
  if_pos (isPlainChar_lt h)

/-- The first word begins where the underscores in front end. -/
theorem wordsFrom_cases {cs : List Char} (h : ∀ c ∈ cs, isPlainChar c = true)
    (previous : Option Char) :
    (lead? cs = none ∧ wordsFrom previous [] cs = []) ∨
      ∃ c word later, lead? cs = some c ∧ isPlainChar c = true ∧
        wordsFrom previous [] cs = (c.toLower :: word) :: later := by
  induction cs generalizing previous with
  | nil => exact .inl ⟨rfl, rfl⟩
  | cons c cs ih =>
      obtain ⟨hc, hcs⟩ := List.forall_mem_cons.1 h
      by_cases hseparator : c = '_'
      · subst hseparator
        exact ih hcs (some '_')
      · have hno : isSeparator c = false := by
          rw [← Bool.not_eq_true, isSeparator_iff hc]
          exact hseparator
        obtain ⟨word, later, hwords⟩ := exists_wordsFrom_cons (some c) c.toLower [] cs
        refine .inr ⟨c, word, later, ?_, hc, ?_⟩
        · simp [lead?, hseparator]
        · simpa [wordsFrom, hno, toLower_of_isPlainChar hc] using hwords

theorem head?_camelCase {name : String} (h : ∀ c ∈ name.toList, isPlainChar c = true) :
    (camelCase name).toList.head? = (lead? name.toList).map Char.toLower := by
  rw [camelCase, String.toList_ofList, words]
  rcases wordsFrom_cases h none with ⟨hlead, hwords⟩ | ⟨c, word, later, hlead, -, hwords⟩
  · rw [hlead, hwords]
    rfl
  · rw [hlead, hwords]
    rfl

theorem head?_snakeCase {name : String} (h : ∀ c ∈ name.toList, isPlainChar c = true) :
    (snakeCase name).toList.head? = (lead? name.toList).map Char.toLower := by
  rw [snakeCase, String.toList_ofList, words]
  rcases wordsFrom_cases h none with ⟨hlead, hwords⟩ | ⟨c, word, later, hlead, -, hwords⟩
  · rw [hlead, hwords]
    rfl
  · rw [hlead, hwords]
    cases later <;> rfl

/-- A name of such characters that begins with the lower case of the first word is an identifier
exactly if that word does not begin with a digit. -/
theorem isIdentifier_iff_of_head? {name identifier : String}
    (h : ∀ c ∈ name.toList, isPlainChar c = true)
    (hchars : ∀ c ∈ identifier.toList, isPlainChar c = true)
    (hhead : identifier.toList.head? = (lead? name.toList).map Char.toLower) :
    IsIdentifier identifier ↔ StartsWord name := by
  have hdigit : ∀ c, isPlainChar c = true → c.toLower.isDigit = c.isDigit :=
    fun c => isPlainChar_cases (p := fun c => c.toLower.isDigit = c.isDigit) (by decide +kernel)
  have hstart : identifier.toList.head?.any (fun c => !c.isDigit) =
      (lead? name.toList).any (fun c => !c.isDigit) := by
    rw [hhead]
    rcases wordsFrom_cases h none with ⟨hlead, -⟩ | ⟨c, -, -, hlead, hc, -⟩
    · rw [hlead]
      rfl
    · simp [hlead, hdigit c hc]
  rw [StartsWord, ← hstart]
  exact ⟨fun hname => hname.start, fun hany => ⟨hchars, hany⟩⟩

/-- A name without scopes is its own identifier. -/
theorem entityIdentifier_of_isPlainChar {name : String}
    (h : ∀ c ∈ name.toList, isPlainChar c = true) : entityIdentifier name = name := by
  have hcolon : ':' ∉ name.toList := fun hmem => absurd (h ':' hmem) (by decide)
  rw [entityIdentifier, Text.replaced, Text.replace_of_not_mem _ (by decide) hcolon,
    String.ofList_toList]

end Naming

open Naming

/-! ## Reserved words -/

namespace Python

theorem escapeKeyword_not_mem (name : String) : escapeKeyword name ∉ keywords := by
  have hescaped : ∀ word ∈ keywords, word ++ "_" ∉ keywords := by decide +kernel
  by_cases h : name ∈ keywords
  · rw [escapeKeyword, if_pos (List.contains_iff_mem.2 h)]
    exact hescaped name h
  · rw [escapeKeyword, if_neg (mt List.contains_iff_mem.1 h)]
    exact h

/-- Reserved words are identifiers, and an underscore behind them changes nothing about that. -/
theorem isIdentifier_escapeKeyword_iff (name : String) :
    IsIdentifier (escapeKeyword name) ↔ IsIdentifier name := by
  have hwords : ∀ word ∈ keywords, IsIdentifier word ∧ IsIdentifier (word ++ "_") := by
    decide +kernel
  rw [escapeKeyword]
  split
  next h =>
    obtain ⟨hword, hescaped⟩ := hwords name (List.contains_iff_mem.1 h)
    exact iff_of_true hescaped hword
  next => rfl

end Python

/-! ## Targets -/

namespace TargetId

/-- A word that may stand where the target expects an identifier. -/
structure Usable (id : TargetId) (word : String) : Prop where
  identifier : IsIdentifier word
  unreserved : id = .python → word ∉ Python.keywords

instance (id : TargetId) (word : String) : Decidable (id.Usable word) :=
  decidable_of_iff (IsIdentifier word ∧ (id = .python → word ∉ Python.keywords))
    ⟨fun h => ⟨h.1, h.2⟩, fun h => ⟨h.identifier, h.unreserved⟩⟩

theorem usable_enumMember (id : TargetId) {name : String} (h : IsIdentifier name) :
    id.Usable ((Target.ofId id).identifiers.enumMember name) := by
  cases id with
  | typescript => exact ⟨h, nofun⟩
  | python =>
      exact ⟨(Python.isIdentifier_escapeKeyword_iff name).2 h,
        fun _ => Python.escapeKeyword_not_mem name⟩

theorem usable_member_iff (id : TargetId) {name : String} (h : IsIdentifier name) :
    id.Usable ((Target.ofId id).identifiers.member name) ↔ StartsWord name := by
  cases id with
  | typescript =>
      have hcamel := isIdentifier_iff_of_head? h.chars (isPlainChar_of_mem_camelCase h.chars)
        (head?_camelCase h.chars)
      exact ⟨fun husable => hcamel.1 husable.identifier, fun hstart => ⟨hcamel.2 hstart, nofun⟩⟩
  | python =>
      have hsnake := isIdentifier_iff_of_head? h.chars (isPlainChar_of_mem_snakeCase h.chars)
        (head?_snakeCase h.chars)
      have hescape := Python.isIdentifier_escapeKeyword_iff (snakeCase name)
      exact ⟨fun husable => hsnake.1 (hescape.1 husable.identifier),
        fun hstart => ⟨hescape.2 (hsnake.2 hstart), fun _ => Python.escapeKeyword_not_mem _⟩⟩

theorem usable_entityIdentifier_iff (id : TargetId) {name : String} (h : IsIdentifier name) :
    id.Usable (entityIdentifier name) ↔ (id = .python → name ∉ Python.keywords) := by
  rw [entityIdentifier_of_isPlainChar h.chars]
  exact ⟨fun husable => husable.unreserved, fun hword => ⟨h, hword⟩⟩

/-- An identifier of a spec can be used as a member of an enumeration; as a field, a property, a
method or an argument exactly if a word without a digit in front begins it; and as an entity
exactly if it is not reserved. -/
theorem usable_iff (id : TargetId) {name : String} (h : IsIdentifier name) :
    let rules := (Target.ofId id).identifiers
    (id.Usable (rules.member name) ↔ StartsWord name) ∧
    id.Usable (rules.enumMember name) ∧
    (id.Usable (entityIdentifier name) ↔ (id = .python → name ∉ Python.keywords)) :=
  ⟨id.usable_member_iff h, id.usable_enumMember h, id.usable_entityIdentifier_iff h⟩

theorem usable_iff_escaped :
    IsIdentifier "__Class" ∧ StartsWord "__Class" ∧ IsIdentifier "None" ∧
    (Target.ofId .python).identifiers.member "__Class" = "class_" ∧
    python.Usable "class_" ∧ typescript.Usable "class" ∧ python.Usable "None_" ∧
    typescript.Usable "None" ∧ python.Usable "__Class" := by
  have hclass : IsIdentifier "__Class" := by decide
  have hstart : StartsWord "__Class" := by decide
  have hnone : IsIdentifier "None" := by decide
  have hmember : (Target.ofId .python).identifiers.member "__Class" = "class_" := by
    decide +kernel
  refine ⟨hclass, hstart, hnone, hmember, ?_, ?_, ?_, ?_, ?_⟩
  · rw [← hmember]
    exact (usable_iff python hclass).1.2 hstart
  · exact (usable_iff typescript hclass).1.2 hstart
  · exact (usable_iff python hnone).2.1
  · exact (usable_iff typescript hnone).2.2.2 nofun
  · exact (usable_iff python hclass).2.2.2 fun _ => by decide +kernel

/-- Underscores alone leave nothing, a digit may come first, and an entity may have the name of a
reserved word. -/
theorem not_usable_unescaped :
    IsIdentifier "_" ∧ (∀ id, (Target.ofId id).identifiers.member "_" = "") ∧
    IsIdentifier "_1" ∧ (∀ id, (Target.ofId id).identifiers.member "_1" = "1") ∧
    IsIdentifier "class" ∧ entityIdentifier "class" ∈ Python.keywords ∧
    (∀ id : TargetId, ¬ id.Usable "" ∧ ¬ id.Usable "1") ∧
    ¬ python.Usable (entityIdentifier "class") := by
  refine ⟨by decide, ?_, by decide, ?_, by decide, by decide +kernel, ?_, by decide +kernel⟩
  · intro id
    cases id <;> decide +kernel
  · intro id
    cases id <;> decide +kernel
  · intro id
    cases id <;> decide +kernel

end TargetId

end Bindery
