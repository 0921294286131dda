import Bindery.Proofs.Naming
import Bindery.Proofs.Text.Lower

/-!
# Words keep all letters

`words_lossless`: one behind the other, the words of a name are all of it in lower case, without
the separators. Names that become one in snake case differ in separators and case only.
-/

namespace Bindery.Naming

/-! ## Lower case and separators -/

/-- A table makes no separator if it leads to none from any code point of its runs. -/
theorem isSeparator_of_mem_mapped {shifts : List (Nat × Nat × Nat × Int)}
    {long : List (Nat × List Nat)} {c d : Char} (hc : isSeparator c = false)
    (hshifts : ∀ run ∈ shifts, ∀ n ∈ Text.runPoints (run.1, run.2.1, run.2.2.1),
      isSeparator (Char.ofNat (n + run.2.2.2).toNat) = false)
    (hlong : ∀ entry ∈ long, ∀ point ∈ entry.2, isSeparator (Char.ofNat point) = false)
    (h : d ∈ Text.mapped shifts long c) : isSeparator d = false := by
  rcases Text.mem_mapped h with ⟨entry, hentry, point, hpoint, rfl⟩ | ⟨run, hrun, hon, rfl⟩ | rfl
  · exact hlong entry hentry point hpoint
  · exact hshifts run hrun _ (Text.mem_runPoints hon)
  · exact hc

theorem isSeparator_of_mem_toLower {c d : Char} (hc : isSeparator c = false)
    (h : d ∈ Text.toLower c) : isSeparator d = false := by
  rw [Text.toLower] at h
  split at h
  next hascii =>
    rw [List.mem_singleton.1 h]
    exact Text.ascii_cases (p := fun c => isSeparator c = false → isSeparator c.toLower = false)
      (by decide +kernel) hascii hc
  next => exact isSeparator_of_mem_mapped hc (by decide +kernel) (by decide +kernel) h

/-! ## Words without losses -/

/-- A text in lower case, without its separators. -/
def letters (cs : List Char) : List Char :=
  (cs.filter fun c => !isSeparator c).flatMap Text.toLower

theorem letters_nil : letters [] = [] := rfl

theorem letters_cons_separator {c : Char} (hc : isSeparator c = true) (cs : List Char) :
    letters (c :: cs) = letters cs := by
  simp [letters, hc]

theorem letters_cons {c : Char} (hc : isSeparator c = false) (cs : List Char) :
    letters (c :: cs) = Text.toLower c ++ letters cs := by
  simp [letters, hc]

/-- The word that has been begun and what is still to be read are in the words to come. -/
theorem flatten_wordsFrom (previous : Option Char) (current cs : List Char) :
    (wordsFrom previous current cs).flatten = current ++ letters cs := by
  induction cs generalizing previous current with
  | nil =>
      rw [wordsFrom, letters_nil]
      cases current <;> simp
  | cons c cs ih =>
      rw [wordsFrom]
      cases hc : isSeparator c with
      | true =>
          rw [if_pos rfl, letters_cons_separator hc]
          cases current <;> simp [ih]
      | false =>
          rw [if_neg Bool.false_ne_true, letters_cons hc]
          split
          · rw [List.flatten_cons, ih]
          · rw [ih, List.append_assoc]

theorem flatten_words (name : List Char) : (words name).flatten = letters name :=
  flatten_wordsFrom none [] name

theorem separatorFree_words (name : List Char) :
    ∀ word ∈ words name, word ≠ [] ∧ ∀ d ∈ word, isSeparator d = false := by
  refine forall_mem_wordsFrom (fun c _ hc => ?_) (fun word hword c _ hc => ?_) (absurd rfl)
  · exact ⟨Text.toLower_ne_nil c, fun d => isSeparator_of_mem_toLower hc⟩
  · refine ⟨List.append_ne_nil_of_left_ne_nil hword.1 _, ?_⟩
    exact List.forall_mem_append.2 ⟨hword.2, fun d => isSeparator_of_mem_toLower hc⟩

/-! ## Looking behind -/

/-- The character before a position. There is none before the first one. -/
def before? (cs : List Char) : Nat → Option Char
  | 0 => none
  | i + 1 => cs[i]?

/-- The words of a text from position `i` on, where `current` has been read of the first one. The
characters beside each position are looked up in the whole text: behind the last one there may be
none, but it is a failure to look for one before the first. -/
def wordsAt? (cs : List Char) (i : Nat) (current : List Char) :
    List Char → Option (List (List Char))
  | [] => some (if current.isEmpty then [] else [current])
  | c :: rest =>
    if isSeparator c then
      (wordsAt? cs (i + 1) [] rest).map fun later =>
        if current.isEmpty then later else current :: later
    else if Text.isUpper c && !current.isEmpty then
      (before? cs i).bind fun previous =>
        if beginsWord (some previous) cs[i + 1]? then
          (wordsAt? cs (i + 1) (Text.toLower c) rest).map (current :: ·)
        else wordsAt? cs (i + 1) (current ++ Text.toLower c) rest
    else wordsAt? cs (i + 1) (current ++ Text.toLower c) rest

theorem exists_before? {cs : List Char} {i : Nat} (hpos : i ≠ 0) (hi : i ≤ cs.length) :
    ∃ previous, before? cs i = some previous := by
  obtain ⟨j, rfl⟩ := Nat.exists_eq_succ_of_ne_zero hpos
  exact ⟨cs[j], List.getElem?_eq_getElem hi⟩

/-- A word is begun behind the first position, so there is a character before all that goes on with
one, and no look-up fails. -/
theorem wordsAt?_eq {cs rest : List Char} {i : Nat} {current : List Char} (hrest : cs.drop i = rest)
    (hcurrent : current ≠ [] → i ≠ 0) :
    wordsAt? cs i current rest = some (wordsFrom (before? cs i) current rest) := by
  induction rest generalizing i current with
  | nil => rfl
  | cons c rest ih =>
      have hlater : cs.drop (i + 1) = rest := by rw [← List.tail_drop, hrest, List.tail_cons]
      have hnext : cs[i + 1]? = rest.head? := by rw [← List.head?_drop, hlater]
      have hbefore : before? cs (i + 1) = some c := by
        rw [before?, ← List.head?_drop, hrest, List.head?_cons]
      have hmore (current : List Char) := @ih (i + 1) current hlater fun _ => Nat.succ_ne_zero i
      rw [wordsAt?, wordsFrom]
      simp only [hmore, hbefore, hnext]
      cases hc : isSeparator c with
      | true => cases current <;> rfl
      | false =>
          rw [if_neg Bool.false_ne_true, if_neg Bool.false_ne_true]
          cases hbegun : Text.isUpper c && !current.isEmpty with
          | false => rfl
          | true =>
              have hne : current ≠ [] := by
                simp only [Bool.and_eq_true, Bool.not_eq_true', List.isEmpty_eq_false_iff] at hbegun
                exact hbegun.2
              have hi : i < cs.length := by
                by_contra hend
                rw [List.drop_eq_nil_of_le (Nat.le_of_not_lt hend)] at hrest
                cases hrest
              obtain ⟨previous, hprevious⟩ := exists_before? (hcurrent hne) (Nat.le_of_lt hi)
              rw [if_pos rfl, hprevious, Option.bind_some, Bool.true_and]
              split <;> rfl

theorem wordsAt?_words (name : List Char) : wordsAt? name 0 [] name = some (words name) :=
  wordsAt?_eq rfl (absurd rfl)

/-! ## Names that become one -/

theorem filter_snakeCase (name : String) :
    (snakeCase name).toList.filter (· ≠ '_') = letters name.toList := by
  have hunderscore : ∀ word ∈ words name.toList, '_' ∉ word := by
    intro word hword hmem
    exact absurd ((separatorFree_words name.toList word hword).2 '_' hmem) (by decide)
  rw [snakeCase, String.toList_ofList, Text.filter_join hunderscore, flatten_words]

/-- No word is empty, and one behind the other they are the letters of the name. No look-up before
the first character is needed to find them. Snake case has the same letters, so names become one in
it only if they differ in nothing but separators and case. -/
theorem words_lossless (name : String) :
    (∀ word ∈ words name.toList, word ≠ []) ∧
      (words name.toList).flatten = letters name.toList ∧
      wordsAt? name.toList 0 [] name.toList = some (words name.toList) ∧
      (snakeCase name).toList.filter (· ≠ '_') = letters name.toList ∧
      ∀ other, snakeCase other = snakeCase name → letters other.toList = letters name.toList := by
  refine ⟨fun word hword => (separatorFree_words _ word hword).1, flatten_words _,
    wordsAt?_words _, filter_snakeCase name, fun other hother => ?_⟩
  rw [← filter_snakeCase, hother, filter_snakeCase]

/-- A capital whose lower case is two characters, an acronym, and separators of all kinds. -/
theorem words_lossless_acronym :
    words "getİD2Path".toList = ["get".toList, "i\u0307d2".toList, "path".toList] ∧
      snakeCase " Get--i\u0307d2_PATH" = snakeCase "getİD2Path" ∧
      letters " Get--i\u0307d2_PATH".toList = letters "getİD2Path".toList := by
  have hsnake : snakeCase " Get--i\u0307d2_PATH" = snakeCase "getİD2Path" := by decide +kernel
  obtain ⟨-, -, -, -, hsame⟩ := words_lossless "getİD2Path"
  exact ⟨by decide +kernel, hsnake, hsame _ hsnake⟩

end Bindery.Naming
