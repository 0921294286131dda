import Bindery.Proofs.Naming.Words
import Bindery.Proofs.Text.Split
import Bindery.Target.Python

/-!
# Snake case as a normal form

`member_normalForm`: snake case turns every name of ASCII into words of lower case with one
underscore between each two, and it keeps the names that are such words, and no others. It drops the
underscore that keeps a member off the keywords, so the rule for members may be applied twice, too.
-/

namespace Bindery

namespace Naming

/-- Words with one underscore between each two: no other separator, no upper case, and no underscore
at an end or beside another one. -/
structure IsSnake (name : String) : Prop where
  upper : ∀ c ∈ name.toList, Text.isUpper c = false
  hyphen : '-' ∉ name.toList
  blank : ∀ c ∈ name.toList, Text.isBlank c = false
  leading : name.toList.head? ≠ some '_'
  trailing : name.toList.getLast? ≠ some '_'
  doubled : ¬ ['_', '_'] <:+: name.toList

/-! ## Words of ASCII -/

section

variable {c : Char} (hascii : c.toNat < 128)

include hascii

theorem settled_toLower (h : isSeparator c = false) : Settled c.toLower := by
  obtain ⟨hseparator, hupper, hlower⟩ := Text.ascii_cases
    (p := fun c => isSeparator c = false → isSeparator c.toLower = false ∧
      Text.isUpper c.toLower = false ∧ Text.toLower c.toLower = [c.toLower])
    (by decide +kernel) hascii h
  exact ⟨hseparator, hupper, hlower⟩

theorem settled_of_isUpper_eq_false (hupper : Text.isUpper c = false) (h : isSeparator c = false) :
    Settled c := by
  have hlower : c.toLower = c := Text.ascii_cases
    (p := fun c => Text.isUpper c = false → c.toLower = c) (by decide +kernel) hascii hupper
  exact hlower ▸ settled_toLower hascii h

end

theorem Settled.ne {c d : Char} (h : Settled c) (hd : isSeparator d = true) : c ≠ d := by
  rintro rfl
  rw [h.separator] at hd
  cases hd

theorem Settled.isBlank {c : Char} (h : Settled c) : Text.isBlank c = false :=
  (Bool.or_eq_false_iff.1 h.separator).2

variable {name : String}

/-- Words are begun and go on with the lower case of a letter, which is settled. -/
theorem settled_words (h : ∀ c ∈ name.toList, c.toNat < 128) :
    ∀ word ∈ words name.toList, word ≠ [] ∧ ∀ c ∈ word, Settled c := by
  have hletter : ∀ c ∈ name.toList, isSeparator c = false →
      Text.toLower c = [c.toLower] ∧ Settled c.toLower :=
    fun c hc hseparator => ⟨if_pos (h c hc), settled_toLower (h c hc) hseparator⟩
  refine forall_mem_wordsFrom ?_ ?_ fun hne => absurd rfl hne
  · intro c hc hseparator
    obtain ⟨hlower, hsettled⟩ := hletter c hc hseparator
    rw [hlower]
    exact ⟨List.cons_ne_nil c.toLower [], List.forall_mem_singleton.2 hsettled⟩
  · rintro word ⟨-, hword⟩ c hc hseparator
    obtain ⟨hlower, hsettled⟩ := hletter c hc hseparator
    rw [hlower]
    exact ⟨by simp, List.forall_mem_append.2 ⟨hword, List.forall_mem_singleton.2 hsettled⟩⟩

/-! ## The form of joined words -/

theorem isSnake_join {parts : List (List Char)}
    (h : ∀ word ∈ parts, word ≠ [] ∧ ∀ c ∈ word, Settled c) :
    IsSnake (String.ofList (Text.join ['_'] parts)) := by
  have hchar : ∀ c ∈ Text.join ['_'] parts, c = '_' ∨ Settled c := by
    intro c hc
    rcases Text.mem_join hc with hc | ⟨word, hword, hc⟩
    · exact .inl (List.mem_singleton.1 hc)
    · exact .inr ((h word hword).2 c hc)
  have hends : (Text.join ['_'] parts).head? ≠ some '_' ∧
      (Text.join ['_'] parts).getLast? ≠ some '_' ∧ ¬ ['_', '_'] <:+: Text.join ['_'] parts := by
    cases parts with
    | nil => decide
    | cons word rest =>
        -- The pieces between the underscores are the words again, and none of them is empty.
        have hpieces := Text.splitOn_join (List.cons_ne_nil word rest)
          fun word hword hmem => ((h word hword).2 '_' hmem).ne (by decide) rfl
        have hnil : [] ∉ Text.splitOn ['_'] (Text.join ['_'] (word :: rest)) := by
          rw [hpieces]
          exact fun hmem => (h [] hmem).1 rfl
        rw [Text.nil_mem_splitOn_iff, not_or, not_or, not_or] at hnil
        exact hnil.2
  obtain ⟨hleading, htrailing, hdoubled⟩ := hends
  constructor
  case upper =>
    intro c hc
    rcases hchar c (by simpa using hc) with rfl | hsettled
    · decide
    · exact hsettled.upper
  case hyphen =>
    intro hmem
    rcases hchar '-' (by simpa using hmem) with heq | hsettled
    · exact absurd heq (by decide)
    · exact hsettled.ne (by decide) rfl
  case blank =>
    intro c hc
    rcases hchar c (by simpa using hc) with rfl | hsettled
    · decide
    · exact hsettled.isBlank
  case leading => rwa [String.toList_ofList]
  case trailing => rwa [String.toList_ofList]
  case doubled => rwa [String.toList_ofList]

theorem isSnake_snakeCase (h : ∀ c ∈ name.toList, c.toNat < 128) : IsSnake (snakeCase name) :=
  isSnake_join (settled_words h)

theorem snakeCase_snakeCase (h : ∀ c ∈ name.toList, c.toNat < 128) :
    snakeCase (snakeCase name) = snakeCase name := by
  have hwords : words (snakeCase name).toList = words name.toList := by
    rw [snakeCase, String.toList_ofList]
    exact wordsFrom_join (settled_words h) none
  rw [snakeCase, hwords]
  rfl

/-- The words of such a name are its pieces. -/
theorem IsSnake.snakeCase_eq (hname : IsSnake name) (h : ∀ c ∈ name.toList, c.toNat < 128) :
    snakeCase name = name := by
  by_cases hempty : name.toList = []
  · obtain rfl : name = "" := String.toList_eq_nil_iff.1 hempty
    decide
  have hnil : [] ∉ Text.splitOn ['_'] name.toList := by
    rw [Text.nil_mem_splitOn_iff]
    rintro (hnil | hhead | hlast | hinfix)
    · exact hempty hnil
    · exact hname.leading hhead
    · exact hname.trailing hlast
    · exact hname.doubled hinfix
  have hpieces : ∀ piece ∈ Text.splitOn ['_'] name.toList,
      piece ≠ [] ∧ ∀ c ∈ piece, Settled c := by
    intro piece hpiece
    refine ⟨fun heq => hnil (heq ▸ hpiece), fun c hc => ?_⟩
    have hmem : c ∈ name.toList :=
      (Text.flatten_splitFrom_sublist 0 name.toList).subset (List.mem_flatten_of_mem hpiece hc)
    have hunderscore : c ≠ '_' := fun heq => Text.not_mem_of_mem_splitOn hpiece (heq ▸ hc)
    have hhyphen : c ≠ '-' := fun heq => hname.hyphen (heq ▸ hmem)
    refine settled_of_isUpper_eq_false (h c hmem) (hname.upper c hmem) ?_
    simp [isSeparator, hunderscore, hhyphen, hname.blank c hmem]
  have hjoin := Text.join_splitOn (List.cons_ne_nil '_' []) name.toList
  have hwords := wordsFrom_join hpieces none
  rw [hjoin] at hwords
  rw [snakeCase, words, hwords, hjoin, String.ofList_toList]

/-! ## Behind the words -/

/-- An underscore at the end adds no word and does not change the others. -/
theorem wordsFrom_concat (previous : Option Char) (current cs : List Char) :
    wordsFrom previous current (cs ++ ['_']) = wordsFrom previous current cs := by
  induction cs generalizing previous current with
  | nil =>
      have hseparator : isSeparator '_' = true := by decide
      cases current <;> simp [wordsFrom, hseparator]
  | cons c cs ih =>
      have hnext : beginsWord previous (cs ++ ['_']).head? = beginsWord previous cs.head? := by
        have hlower : Text.isLower '_' = false := by decide
        cases cs <;> simp [beginsWord, hlower]
      simp only [List.cons_append, wordsFrom, ih, hnext]

end Naming

namespace Python

open Naming

theorem snakeCase_escapeKeyword (name : String) :
    snakeCase (escapeKeyword name) = snakeCase name := by
  rw [escapeKeyword]
  split
  · have hlist : (name ++ "_").toList = name.toList ++ ['_'] := by simp
    rw [snakeCase, words, hlist, wordsFrom_concat]
    rfl
  · rfl

theorem member_eq (name : String) : identifiers.member name = escapeKeyword (snakeCase name) := rfl

theorem snakeCase_member {name : String} (h : ∀ c ∈ name.toList, c.toNat < 128) :
    snakeCase (identifiers.member name) = snakeCase name := by
  rw [member_eq, snakeCase_escapeKeyword, snakeCase_snakeCase h]

/-- For names of ASCII: snake case has that form, and so changes nothing when it is applied again;
it keeps exactly the names of that form; and it drops the underscore that members have which would
be keywords, so their rule puts it there once, however often it is applied. -/
theorem member_normalForm {name : String} (h : ∀ c ∈ name.toList, c.toNat < 128) :
    IsSnake (snakeCase name) ∧ snakeCase (snakeCase name) = snakeCase name ∧
      (snakeCase name = name ↔ IsSnake name) ∧
      snakeCase (identifiers.member name) = snakeCase name ∧
      identifiers.member (identifiers.member name) = identifiers.member name := by
  refine ⟨isSnake_snakeCase h, snakeCase_snakeCase h, ⟨fun heq => ?_, fun hname => ?_⟩,
    snakeCase_member h, ?_⟩
  · exact heq ▸ isSnake_snakeCase h
  · exact hname.snakeCase_eq h
  · rw [member_eq (identifiers.member name), snakeCase_member h, member_eq]

/-- A keyword in capitals, behind and before separators. -/
theorem member_normalForm_lambda :
    (∀ c ∈ " --Lambda__".toList, c.toNat < 128) ∧ snakeCase " --Lambda__" = "lambda" ∧
      IsSnake "lambda" ∧ snakeCase "lambda" = "lambda" ∧
      identifiers.member " --Lambda__" = "lambda_" ∧ identifiers.member "lambda_" = "lambda_" := by
  have hascii : ∀ c ∈ " --Lambda__".toList, c.toNat < 128 := by simp
  have hsnake : snakeCase " --Lambda__" = "lambda" := by decide +kernel
  have hmember : identifiers.member " --Lambda__" = "lambda_" := by decide +kernel
  obtain ⟨hform, hagain, -, -, hrule⟩ := member_normalForm hascii
  rw [hsnake] at hform hagain
  rw [hmember] at hrule
  exact ⟨hascii, hsnake, hform, hagain, hmember, hrule⟩

end Python

end Bindery
