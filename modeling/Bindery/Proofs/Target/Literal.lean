import Bindery.Proofs.Text.Split
import Bindery.Target.Python

/-!
# What Python reads in a literal

`evaluated?_stringLiteral`: a text without control characters is what its literal stands for.
`evaluated?_stringLiteral_eq`: so is every text that stays on its line, and the literals of the
others stand for nothing.
-/

namespace Bindery.Python

open Text

/-- What a character behind a backslash stands for. A line break there stands for nothing; a
character that makes no escape keeps its backslash. Escapes by a number or a name are left out. -/
def escaped? : Char → Option (List Char)
  | '\\' => some ['\\']
  | '\'' => some ['\'']
  | '"' => some ['"']
  | 'a' => some ['\x07']
  | 'b' => some ['\x08']
  | 'f' => some ['\x0c']
  | 'n' => some ['\n']
  | 'r' => some ['\r']
  | 't' => some ['\t']
  | 'v' => some ['\x0b']
  | '\n' => some []
  | c => if c.isDigit || "xuUN\r\x00".toList.contains c then none else some ['\\', c]

/-- The text up to the quote that ends the literal. Nothing may follow it, and the literal stands on
one line. -/
def content (quote : Char) : List Char → Option (List Char)
  | [] => none
  | '\\' :: c :: cs => do
    let text ← escaped? c
    (text ++ ·) <$> content quote cs
  | c :: cs =>
    if c = quote then if cs.isEmpty then some [] else none
    else if c = '\n' || c = '\r' || c = '\x00' then none
    else (c :: ·) <$> content quote cs

/-- What a literal between single or double quotes stands for. Three of them begin another kind of
literal. -/
def evaluated? (literal : String) : Option String :=
  match literal.toList with
  | [] => none
  | quote :: cs =>
    if (quote = '"' || quote = '\'') && !([quote, quote].isPrefixOf cs) then
      (content quote cs).map String.ofList
    else none

/-! ## Written literals -/

/-- How a character is written between such quotes. -/
def letter (quote c : Char) : List Char :=
  if c = '\\' then ['\\', '\\'] else if c = quote then ['\\', quote] else [c]

/-- A character that may stand in the line of a literal. -/
def StaysOnLine (c : Char) : Prop :=
  c ≠ '\n' ∧ c ≠ '\r' ∧ c ≠ '\x00'

instance : DecidablePred StaysOnLine :=
  fun _ => inferInstanceAs (Decidable (_ ∧ _ ∧ _))

def Unbroken (cs : List Char) : Prop :=
  ∀ c ∈ cs, StaysOnLine c

instance : DecidablePred Unbroken :=
  fun _ => List.decidableBAll _ _

theorem unbroken_nil : Unbroken [] :=
  List.forall_mem_nil _

theorem unbroken_cons {c : Char} {cs : List Char} :
    Unbroken (c :: cs) ↔ StaysOnLine c ∧ Unbroken cs :=
  List.forall_mem_cons

theorem exists_stringLiteral_eq (text : String) :
    ∃ quote, (quote = '"' ∨ quote = '\'') ∧
      (stringLiteral text).toList = quote :: (text.toList.flatMap (letter quote) ++ [quote]) := by
  have hbackslash : (replaced "\\" "\\\\" text).toList =
      text.toList.flatMap fun c => if c = '\\' then ['\\', '\\'] else [c] := by
    rw [replaced, String.toList_ofList]
    exact replace_singleton '\\' text.toList
  by_cases h : (text.contains '"' && !text.contains '\'') = true
  · refine ⟨'\'', .inr rfl, ?_⟩
    have hquote : '\'' ∉ text.toList := by simpa using (Bool.and_eq_true_iff.1 h).2
    have hletters : text.toList.flatMap (letter '\'') =
        text.toList.flatMap fun c => if c = '\\' then ['\\', '\\'] else [c] := by
      refine List.flatMap_congr fun c hc => ?_
      have hne : c ≠ '\'' := fun heq => hquote (heq ▸ hc)
      simp [letter, hne]
    simp only [stringLiteral, h, if_true]
    simp [hbackslash, hletters]
  · refine ⟨'"', .inl rfl, ?_⟩
    have hquotes : (replaced "\"" "\\\"" (replaced "\\" "\\\\" text)).toList =
        text.toList.flatMap (letter '"') := by
      rw [replaced, String.toList_ofList, hbackslash]
      refine (replace_singleton '"' _).trans ?_
      rw [List.flatMap_assoc]
      refine List.flatMap_congr fun c _ => ?_
      by_cases hc : c = '\\'
      · subst hc
        rfl
      · simp [letter, hc]
    simp only [stringLiteral, h, Bool.false_eq_true, if_false]
    simp [hquotes]

/-- A text without double quotes and backslashes is written as it is. -/
theorem stringLiteral_of_not_mem {text : String} (hquote : '"' ∉ text.toList)
    (hbackslash : '\\' ∉ text.toList) : stringLiteral text = "\"" ++ text ++ "\"" := by
  have hreplaced (old new : String) (c : Char) (hc : c ∈ old.toList) (h : c ∉ text.toList) :
      replaced old new text = text := by
    rw [replaced, replace_of_not_mem _ hc h, String.ofList_toList]
  have hcontains : text.contains '"' = false := by simpa using hquote
  rw [stringLiteral, hcontains, hreplaced "\\" _ '\\' (by decide) hbackslash,
    hreplaced "\"" _ '"' (by decide) hquote]
  rfl

section

variable {quote : Char} (hquote : quote = '"' ∨ quote = '\'')

include hquote

theorem content_letter {c : Char} (hc : StaysOnLine c) (rest : List Char) :
    content quote (letter quote c ++ rest) = (c :: ·) <$> content quote rest := by
  rw [letter]
  split
  · subst_vars
    simp [content, escaped?]
  split
  · subst_vars
    rcases hquote with rfl | rfl <;> simp [content, escaped?]
  · obtain ⟨hfeed, hreturn, hnull⟩ := hc
    simp [content, *]

/-- What breaks a line is written as it is, which no literal may hold. -/
theorem content_letter_of_not_staysOnLine {c : Char} (hc : ¬ StaysOnLine c) (rest : List Char) :
    content quote (letter quote c ++ rest) = none := by
  have hcases : c = '\n' ∨ c = '\r' ∨ c = '\x00' := by
    rw [StaysOnLine] at hc
    tauto
  rcases hquote with rfl | rfl <;> rcases hcases with rfl | rfl | rfl <;> rfl

theorem content_letters (cs : List Char) :
    content quote (cs.flatMap (letter quote) ++ [quote]) =
      if Unbroken cs then some cs else none := by
  induction cs with
  | nil =>
      rw [if_pos unbroken_nil]
      simp [content]
  | cons c cs ih =>
      rw [List.flatMap_cons, List.append_assoc]
      by_cases hc : StaysOnLine c
      · rw [content_letter hquote hc, ih]
        by_cases hcs : Unbroken cs
        · rw [if_pos hcs, if_pos (unbroken_cons.2 ⟨hc, hcs⟩)]
          rfl
        · rw [if_neg hcs, if_neg fun h => hcs (unbroken_cons.1 h).2]
          rfl
      · rw [content_letter_of_not_staysOnLine hquote hc, if_neg fun h => hc (unbroken_cons.1 h).1]

theorem letter_append_ne_quote (c : Char) (rest cs : List Char) :
    letter quote c ++ rest ≠ quote :: cs := by
  have hbackslash : '\\' ≠ quote := by rcases hquote with rfl | rfl <;> decide
  rw [letter]
  split
  · simp [hbackslash]
  split
  · simp [hbackslash]
  · simp [*]

theorem not_prefix_letters (cs : List Char) :
    ¬ [quote, quote] <+: cs.flatMap (letter quote) ++ [quote] := by
  cases cs with
  | nil => simp
  | cons c cs =>
      rintro ⟨rest, hrest⟩
      rw [List.flatMap_cons, List.append_assoc] at hrest
      exact letter_append_ne_quote hquote c _ _ hrest.symm

end

/-- A text that stays on its line is what its literal stands for; the literal of another text stands
for nothing. -/
theorem evaluated?_stringLiteral_eq (text : String) :
    evaluated? (stringLiteral text) = if Unbroken text.toList then some text else none := by
  obtain ⟨quote, hquote, hliteral⟩ := exists_stringLiteral_eq text
  have hshort := not_prefix_letters hquote text.toList
  rw [← List.isPrefixOf_iff_prefix] at hshort
  have hvalue : evaluated? (stringLiteral text) =
      (content quote (text.toList.flatMap (letter quote) ++ [quote])).map String.ofList := by
    simp [evaluated?, hliteral, hquote, hshort]
  rw [hvalue, content_letters hquote]
  by_cases h : Unbroken text.toList
  · rw [if_pos h, if_pos h, Option.map_some, String.ofList_toList]
  · rw [if_neg h, if_neg h]
    rfl

/-- A text is what its literal stands for. -/
theorem evaluated?_stringLiteral {text : String} (h : ControlFree text.toList) :
    evaluated? (stringLiteral text) = some text := by
  rw [evaluated?_stringLiteral_eq, if_pos]
  intro c hc
  have hcontrol := h c hc
  refine ⟨?_, ?_, ?_⟩ <;> rintro rfl <;> exact absurd hcontrol (by decide)

end Bindery.Python
