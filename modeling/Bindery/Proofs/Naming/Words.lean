import Bindery.Proofs.Naming
import Bindery.Proofs.Text.Lower

/-!
# Words in both cases

Camel case and snake case find the same words in a name whose words have a lower-case letter of
ASCII in front and something behind it. So neither case changes such a name twice, each leads back
to it, and no two of them become one.
-/

namespace Bindery.Naming

/-! ## Words and names of words -/

/-- What stands behind the first letter of a word. -/
def isLowerWordChar (c : Char) : Bool := Text.isLower c || c.isDigit

/-- A lower-case letter of ASCII, then at least one more lower-case letter or digit. -/
def IsLowerWord : List Char → Prop
  | [] => False
  | c :: cs => c.isLower = true ∧ cs ≠ [] ∧ ∀ d ∈ cs, isLowerWordChar d = true

instance (word : List Char) : Decidable (IsLowerWord word) :=
  match word with
  | [] => inferInstanceAs (Decidable False)
  | c :: cs =>
    decidable_of_iff (c.isLower = true ∧ cs ≠ [] ∧ cs.all isLowerWordChar = true) <| by
      rw [IsLowerWord, List.all_eq_true]

/-- Words with an underscore between each two. -/
def IsLowerName (name : String) : Prop :=
  ∃ parts : List String, parts ≠ [] ∧ (∀ part ∈ parts, IsLowerWord part.toList) ∧
    name = Text.joined "_" parts

/-- A character that stays as it is and keeps to its word: it has no other lower case, begins no
word and ends none. -/
structure Settled (c : Char) : Prop where
  separator : isSeparator c = false
  upper : Text.isUpper c = false
  lower : Text.toLower c = [c]

/-! ## Characters -/

section

variable {c : Char}

theorem toNat_lt_of_isDigit (h : c.isDigit = true) : c.toNat < 128 :=
  isPlainChar_lt (by simp [isPlainChar, Char.isAlphanum, h])

theorem toNat_lt_of_isLower (h : c.isLower = true) : c.toNat < 128 := by
  have hletter : c.isAlpha = true := Bool.or_eq_true_iff.2 (.inr h)
  exact isPlainChar_lt (by simp [isPlainChar, Char.isAlphanum, hletter])

theorem isLowerWordChar_of_isLower (h : c.isLower = true) : isLowerWordChar c = true := by
  rw [isLowerWordChar, Text.isLower, if_pos (toNat_lt_of_isLower h), h, Bool.true_or]

theorem isLowerWordChar_cases {p : Char → Prop} (h : isLowerWordChar c = true)
    (hletter : Text.isLower c = true → p c)
    (hdigit : ∀ n : Fin 128, (Char.ofNat n).isDigit = true → p (Char.ofNat n)) : p c := by
  rcases Bool.or_eq_true_iff.1 h with h | h
  · exact hletter h
  · exact Text.ascii_cases (p := fun c => c.isDigit = true → p c) hdigit (toNat_lt_of_isDigit h) h

/-- Characters of words are kept as they are. -/
theorem toLower_of_isLowerWordChar (h : isLowerWordChar c = true) : Text.toLower c = [c] :=
  isLowerWordChar_cases (p := fun c => Text.toLower c = [c]) h Text.toLower_of_isLower
    (by decide +kernel)

/-- No character of a word begins another one. -/
theorem isUpper_of_isLowerWordChar (h : isLowerWordChar c = true) : Text.isUpper c = false :=
  isLowerWordChar_cases (p := fun c => Text.isUpper c = false) h Text.isUpper_of_isLower
    (by decide +kernel)

theorem isSeparator_of_isLowerWordChar (h : isLowerWordChar c = true) : isSeparator c = false := by
  refine isLowerWordChar_cases (p := fun c => isSeparator c = false) h ?_ (by decide +kernel)
  intro hletter
  have hunderscore : c ≠ '_' := by
    rintro rfl
    exact absurd hletter (by decide)
  have hhyphen : c ≠ '-' := by
    rintro rfl
    exact absurd hletter (by decide)
  simp [isSeparator, hunderscore, hhyphen, Text.isBlank_of_isLower hletter]

theorem settled_of_isLowerWordChar (h : isLowerWordChar c = true) : Settled c :=
  ⟨isSeparator_of_isLowerWordChar h, isUpper_of_isLowerWordChar h, toLower_of_isLowerWordChar h⟩

/-- Behind a character of a word, an upper-case letter begins the next word. -/
theorem beginsWord_of_isLowerWordChar (h : isLowerWordChar c = true) (next : Option Char) :
    beginsWord (some c) next = true := by
  rw [isLowerWordChar] at h
  simp [beginsWord, h]

/-- The capital of a letter of ASCII: no separator, upper case, and lower case again that letter. -/
theorem capital_of_isLower (h : c.isLower = true) :
    Text.toUpper c = [c.toUpper] ∧ isSeparator c.toUpper = false ∧
      Text.isUpper c.toUpper = true ∧ Text.toLower c.toUpper = [c] :=
  Text.ascii_cases (p := fun c => c.isLower = true → Text.toUpper c = [c.toUpper] ∧
      isSeparator c.toUpper = false ∧ Text.isUpper c.toUpper = true ∧ Text.toLower c.toUpper = [c])
    (by decide +kernel) (toNat_lt_of_isLower h) h

end

/-! ## Reading words -/

variable {parts : List (List Char)}

theorem IsLowerWord.isLowerWordChar {word : List Char} (h : IsLowerWord word) :
    ∀ c ∈ word, Naming.isLowerWordChar c = true := by
  cases word with
  | nil => exact h.elim
  | cons c cs => exact List.forall_mem_cons.2 ⟨isLowerWordChar_of_isLower h.1, h.2.2⟩

theorem IsLowerWord.ne_nil {word : List Char} (h : IsLowerWord word) : word ≠ [] := by
  rintro rfl
  exact h

theorem IsLowerWord.settled {word : List Char} (h : IsLowerWord word) : ∀ c ∈ word, Settled c :=
  fun c hc => settled_of_isLowerWordChar (h.isLowerWordChar c hc)

/-- A run of settled characters joins the word that has been begun, and its last one is the previous
character from there on. -/
theorem wordsFrom_append {cs : List Char} (h : ∀ c ∈ cs, Settled c)
    (previous : Option Char) (current rest : List Char) :
    wordsFrom previous current (cs ++ rest) =
      wordsFrom (cs.getLast?.or previous) (current ++ cs) rest := by
  induction cs generalizing previous current with
  | nil => simp
  | cons c cs ih =>
      obtain ⟨hc, hcs⟩ := List.forall_mem_cons.1 h
      have hlast : (c :: cs).getLast?.or previous = cs.getLast?.or (some c) := by
        cases hd : cs.getLast? <;> simp [List.getLast?_cons, hd]
      rw [List.cons_append, wordsFrom, hc.separator, hc.upper, hc.lower, hlast]
      simpa using ih hcs (some c) (current ++ [c])

/-- Underscores keep words of settled characters apart. -/
theorem wordsFrom_join (h : ∀ word ∈ parts, word ≠ [] ∧ ∀ c ∈ word, Settled c)
    (previous : Option Char) : wordsFrom previous [] (Text.join ['_'] parts) = parts := by
  induction parts generalizing previous with
  | nil => rfl
  | cons word rest ih =>
      obtain ⟨⟨hne, hword⟩, hrest⟩ := List.forall_mem_cons.1 h
      cases rest with
      | nil =>
          have hread := wordsFrom_append hword previous [] []
          rw [List.append_nil, List.nil_append, wordsFrom] at hread
          simpa [Text.join, hne] using hread
      | cons next rest =>
          have hseparator : isSeparator '_' = true := by decide
          rw [Text.join_cons_cons, wordsFrom_append hword, List.nil_append,
            List.singleton_append, wordsFrom, hseparator, ih hrest]
          simp [hne]

/-- Capitals end the word before them, and each stands for the letter that it is of. -/
theorem wordsFrom_capitalized (h : ∀ word ∈ parts, IsLowerWord word) {p : Char}
    (hp : isLowerWordChar p = true) {current : List Char} (hcurrent : current ≠ []) :
    wordsFrom (some p) current (parts.flatMap capitalized) = current :: parts := by
  induction parts generalizing p current with
  | nil => simp [wordsFrom, hcurrent]
  | cons word rest ih =>
      obtain ⟨hword, hrest⟩ := List.forall_mem_cons.1 h
      cases word with
      | nil => exact hword.elim
      | cons c cs =>
          obtain ⟨hc, hcs, htail⟩ := hword
          obtain ⟨hcapital, hseparator, hupper, hlower⟩ := capital_of_isLower hc
          have hlast : cs.getLast? = some (cs.getLast hcs) := List.getLast?_eq_some_getLast hcs
          have hread : wordsFrom (some c.toUpper) [c] (cs ++ rest.flatMap capitalized) =
              (c :: cs) :: rest := by
            rw [wordsFrom_append fun d hd => settled_of_isLowerWordChar (htail d hd), hlast,
              Option.some_or, List.singleton_append]
            exact ih hrest (htail _ (List.getLast_mem hcs)) (List.cons_ne_nil c cs)
          rw [List.flatMap_cons, capitalized, hcapital, List.append_assoc, List.singleton_append,
            wordsFrom, hseparator, hupper, hlower, beginsWord_of_isLowerWordChar hp, hread]
          simp [hcurrent]

theorem words_camelWords (h : ∀ word ∈ parts, IsLowerWord word) :
    words (camelWords parts) = parts := by
  cases parts with
  | nil => rfl
  | cons word rest =>
      obtain ⟨hword, hrest⟩ := List.forall_mem_cons.1 h
      have hlast := List.getLast?_eq_some_getLast hword.ne_nil
      rw [words, camelWords, wordsFrom_append hword.settled, hlast, Option.some_or,
        List.nil_append]
      exact wordsFrom_capitalized hrest (hword.isLowerWordChar _ (List.getLast_mem hword.ne_nil))
        hword.ne_nil

/-! ## Names in both cases -/

section

variable {name : String}

theorem IsLowerName.exists_words (h : IsLowerName name) :
    (∀ word ∈ words name.toList, IsLowerWord word) ∧
      name = String.ofList (Text.join ['_'] (words name.toList)) := by
  obtain ⟨parts, -, hparts, rfl⟩ := h
  have hlists : ∀ word ∈ parts.map String.toList, IsLowerWord word := by
    intro word hword
    obtain ⟨part, hpart, rfl⟩ := List.mem_map.1 hword
    exact hparts part hpart
  have hwords : words (Text.joined "_" parts).toList = parts.map String.toList := by
    rw [Text.joined, String.toList_ofList]
    exact wordsFrom_join
      (fun word hword => ⟨(hlists word hword).ne_nil, (hlists word hword).settled⟩) none
  rw [hwords]
  exact ⟨hlists, rfl⟩

theorem IsLowerName.snakeCase (h : IsLowerName name) : snakeCase name = name :=
  h.exists_words.2.symm

theorem IsLowerName.words_camelCase (h : IsLowerName name) :
    words (camelCase name).toList = words name.toList := by
  rw [camelCase, String.toList_ofList]
  exact words_camelWords h.exists_words.1

/-- Snake case leads from camel case back to the name. -/
theorem IsLowerName.snakeCase_camelCase (h : IsLowerName name) :
    Naming.snakeCase (camelCase name) = name := by
  rw [Naming.snakeCase, h.words_camelCase]
  exact h.snakeCase

theorem IsLowerName.camelCase_camelCase (h : IsLowerName name) :
    camelCase (camelCase name) = camelCase name := by
  rw [camelCase, h.words_camelCase]
  rfl

end

/-- Both cases find the words that a name is made of: snake case keeps the name and gets it back
from camel case, camel case keeps what it has made, and different names stay different. -/
theorem cases_of_isLowerName {name : String} (h : IsLowerName name) :
    snakeCase name = name ∧ snakeCase (camelCase name) = name ∧
      camelCase (camelCase name) = camelCase name ∧
      ∀ other, IsLowerName other → other ≠ name →
        snakeCase other ≠ snakeCase name ∧ camelCase other ≠ camelCase name := by
  refine ⟨h.snakeCase, h.snakeCase_camelCase, h.camelCase_camelCase, fun other hother hne => ?_⟩
  refine ⟨fun hsnake => hne ?_, fun hcamel => hne ?_⟩
  · rw [← hother.snakeCase, hsnake, h.snakeCase]
  · rw [← hother.snakeCase_camelCase, hcamel, h.snakeCase_camelCase]

/-- Digits, a letter beyond ASCII and a capital that ends a word, all in one name. -/
theorem cases_of_getObject2 :
    IsLowerName "get_object2_größe" ∧ camelCase "get_object2_größe" = "getObject2Größe" ∧
      snakeCase "getObject2Größe" = "get_object2_größe" ∧
      camelCase "get_object_größe" ≠ camelCase "get_object2_größe" := by
  have hname : IsLowerName "get_object2_größe" :=
    ⟨["get", "object2", "größe"], by decide, by decide +kernel, by decide +kernel⟩
  have hother : IsLowerName "get_object_größe" :=
    ⟨["get", "object", "größe"], by decide, by decide +kernel, by decide +kernel⟩
  have hcamel : camelCase "get_object2_größe" = "getObject2Größe" := by decide +kernel
  obtain ⟨-, hback, -, hdistinct⟩ := cases_of_isLowerName hname
  exact ⟨hname, hcamel, hcamel ▸ hback, (hdistinct _ hother (by decide)).2⟩

end Bindery.Naming
