import Bindery.Proofs.Json.Spelling
import Bindery.Proofs.Text.Split

/-!
# Texts that cannot end a comment

What a comment does with its text: a slash behind a star gets a backslash in front. This is the
only change, and `Spells.guardSlashes`: it leaves a spelt value spelt, since a slash stands between
quotes only, where JSON reads it the same with a backslash in front.
-/

namespace Bindery.TypeScript

open Text

/-- Puts a backslash in front of every slash behind a star. The flag tells whether the text itself
stands behind one. -/
def guardSlashes : Bool → List Char → List Char
  | _, [] => []
  | star, c :: cs =>
    if star && c = '/' then '\\' :: '/' :: guardSlashes false cs
    else c :: guardSlashes (c = '*') cs

theorem guardSlashes_cons {c : Char} (h : c ≠ '/') (star : Bool) (cs : List Char) :
    guardSlashes star (c :: cs) = c :: guardSlashes (c = '*') cs := by
  simp [guardSlashes, h]

theorem guardSlashes_false_cons (c : Char) (cs : List Char) :
    guardSlashes false (c :: cs) = c :: guardSlashes (c = '*') cs := by
  simp [guardSlashes]

theorem guardSlashes_of_not_mem {s : List Char} (h : '/' ∉ s) (star : Bool) :
    guardSlashes star s = s := by
  induction s generalizing star with
  | nil => rfl
  | cons c s ih =>
      obtain ⟨hc, hs⟩ := List.ne_and_not_mem_of_not_mem_cons h
      rw [guardSlashes_cons (Ne.symm hc), ih hs]

theorem replace_eq_guardSlashes (s : List Char) :
    replace ['*', '/'] ['*', '\\', '/'] s = guardSlashes false s := by
  -- The search looks two characters ahead, so the text is also followed with a star in front.
  suffices h : replace ['*', '/'] ['*', '\\', '/'] s = guardSlashes false s ∧
      replace ['*', '/'] ['*', '\\', '/'] ('*' :: s) = '*' :: guardSlashes true s from h.1
  induction s with
  | nil => exact ⟨rfl, rfl⟩
  | cons c s ih =>
      obtain ⟨ih, ihstar⟩ := ih
      have hplain : replace ['*', '/'] ['*', '\\', '/'] (c :: s) = guardSlashes false (c :: s) := by
        rw [guardSlashes_false_cons]
        by_cases hc : c = '*'
        · subst hc
          exact ihstar
        · have hno : ¬ ['*', '/'] <+: c :: s := fun h => hc (List.cons_prefix_cons.1 h).1.symm
          rw [replace_cons hno, ih, decide_eq_false hc]
      refine ⟨hplain, ?_⟩
      by_cases hc : c = '/'
      · subst hc
        calc replace ['*', '/'] ['*', '\\', '/'] ('*' :: '/' :: s)
            = ['*', '\\', '/'] ++ replace ['*', '/'] ['*', '\\', '/'] s :=
              replace_append (by decide) s
          _ = '*' :: guardSlashes true ('/' :: s) := by rw [ih]; rfl
      · have hno : ¬ ['*', '/'] <+: '*' :: c :: s := fun h =>
          hc (List.cons_prefix_cons.1 (List.cons_prefix_cons.1 h).2).1.symm
        rw [replace_cons hno, hplain, guardSlashes_cons hc, guardSlashes_cons hc]

theorem toList_replaced (s : String) :
    (replaced "*/" "*\\/" s).toList = guardSlashes false s.toList := by
  rw [replaced, String.toList_ofList]
  exact replace_eq_guardSlashes s.toList

/-- What happens to a text behind another one depends on the end of that one only. -/
theorem exists_guardSlashes_append (star : Bool) (a : List Char) :
    ∃ behind, ∀ b, guardSlashes star (a ++ b) = guardSlashes star a ++ guardSlashes behind b := by
  induction a generalizing star with
  | nil => exact ⟨star, fun b => rfl⟩
  | cons c a ih =>
      by_cases h : (star && decide (c = '/')) = true
      · obtain ⟨behind, hbehind⟩ := ih false
        exact ⟨behind, fun b => by simp [guardSlashes, h, hbehind]⟩
      · obtain ⟨behind, hbehind⟩ := ih (c = '*')
        exact ⟨behind, fun b => by simp [guardSlashes, h, hbehind]⟩

theorem guardSlashes_append_cons {c : Char} (h : c ≠ '/') (star : Bool) (a b : List Char) :
    guardSlashes star (a ++ c :: b) = guardSlashes star a ++ c :: guardSlashes (c = '*') b := by
  obtain ⟨behind, hbehind⟩ := exists_guardSlashes_append star a
  rw [hbehind, guardSlashes_cons h]

theorem guardSlashes_true_ne_slash (s rest : List Char) : guardSlashes true s ≠ '/' :: rest := by
  cases s with
  | nil => simp [guardSlashes]
  | cons c cs => by_cases h : c = '/' <;> simp [guardSlashes, h]

theorem not_infix_guardSlashes (star : Bool) (s : List Char) :
    ¬ ['*', '/'] <:+: guardSlashes star s := by
  induction s generalizing star with
  | nil => simp [guardSlashes]
  | cons c cs ih =>
      rw [guardSlashes]
      split
      · rw [List.infix_cons_iff, List.infix_cons_iff]
        rintro (h | h | h)
        · exact absurd (List.cons_prefix_cons.1 h).1 (by decide)
        · exact absurd (List.cons_prefix_cons.1 h).1 (by decide)
        · exact ih false h
      · rw [List.infix_cons_iff]
        rintro (h | h)
        · obtain ⟨rfl, hslash⟩ := List.cons_prefix_cons.1 h
          obtain ⟨rest, hrest⟩ := hslash
          exact guardSlashes_true_ne_slash cs rest (by simpa using hrest.symm)
        · exact ih _ h

end Bindery.TypeScript

/-! ## Spelt texts -/

namespace Bindery.Json

open TypeScript

theorem Letter.guardSlashes {c : Char} {text : List Char} (h : Letter c text) (star : Bool) :
    Letter c (guardSlashes star text) := by
  cases h with
  | plain hcontrol hquote hbackslash =>
      rw [TypeScript.guardSlashes]
      split
      · obtain rfl : c = '/' := by simp_all
        exact .escape rfl
      · exact .plain hcontrol hquote hbackslash
  | @escape _ e he =>
      simpa [TypeScript.guardSlashes] using Letter.escape he
  | @unit n hn =>
      have hdigits : ∀ m < 32, TypeScript.guardSlashes star
          ['\\', 'u', '0', '0', Text.hexDigit (m / 16), Text.hexDigit (m % 16)] =
          ['\\', 'u', '0', '0', Text.hexDigit (m / 16), Text.hexDigit (m % 16)] := by
        cases star <;> decide
      rw [hdigits n hn]
      exact .unit hn

theorem Letters.guardSlashes {cs text : List Char} (h : Letters cs text) (star : Bool) :
    Letters cs (guardSlashes star text) := by
  induction h generalizing star with
  | nil => exact .nil
  | @cons c cs text rest hletter _ ih =>
      obtain ⟨behind, hbehind⟩ := exists_guardSlashes_append star text
      rw [hbehind]
      exact .cons (hletter.guardSlashes star) (ih behind)

theorem guardSlashes_quoted (star : Bool) (text rest : List Char) :
    guardSlashes star ('"' :: (text ++ '"' :: rest)) =
      '"' :: (guardSlashes false text ++ '"' :: guardSlashes false rest) := by
  rw [guardSlashes_cons (by decide), guardSlashes_append_cons (by decide)]
  rfl

theorem Spells.guardSlashes {part : Part} {text : List Char} (h : Spells part text) (star : Bool) :
    Spells part (guardSlashes star text) := by
  induction h generalizing star with
  | null => cases star <;> exact .null
  | bool b => cases star <;> cases b <;> exact .bool _
  | integer hi =>
      rw [guardSlashes_of_not_mem (not_mem_integerText (by decide) (by decide))]
      exact .integer hi
  | string hletters =>
      rw [guardSlashes_quoted]
      exact .string (hletters.guardSlashes false)
  | emptyList => cases star <;> exact .emptyList
  | list _ ih =>
      rw [guardSlashes_cons (by decide), guardSlashes_append_cons (by decide)]
      exact .list (ih false)
  | emptyTable => cases star <;> exact .emptyTable
  | table _ ih =>
      rw [guardSlashes_cons (by decide), guardSlashes_append_cons (by decide)]
      exact .table (ih false)
  | lastItem _ ih => exact .lastItem (ih star)
  | item _ _ ihvalue ihitems =>
      rw [guardSlashes_append_cons (by decide)]
      exact .item (ihvalue star) (ihitems false)
  | lastMember hkey _ ih =>
      rw [guardSlashes_quoted, guardSlashes_cons (by decide)]
      exact .lastMember (hkey.guardSlashes false) (ih false)
  | member hkey _ _ ihvalue ihmembers =>
      rw [guardSlashes_quoted, guardSlashes_cons (by decide),
        guardSlashes_append_cons (by decide)]
      exact .member (hkey.guardSlashes false) (ihvalue false) (ihmembers false)

end Bindery.Json
