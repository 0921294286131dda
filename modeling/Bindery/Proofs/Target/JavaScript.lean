import Bindery.Proofs.Text.Occurrences
import Bindery.Text.Hex

/-!
# What JavaScript reads in a string literal

`literal?_between_quotes_iff`: a text between double quotes stands for itself exactly if it has
neither quotes nor backslashes. A literal in a module keeps to strict mode, so it has no octal
escapes.
-/

namespace Bindery.JavaScript

open Text

/-- The UTF-16 units of a code point. -/
def units (n : Nat) : List Nat :=
  if n < 0x10000 then [n]
  else [0xD800 + (n - 0x10000) / 0x400, 0xDC00 + (n - 0x10000) % 0x400]

/-- The units of a text, which are what a string is made of. -/
def textUnits (cs : List Char) : List Nat :=
  cs.flatMap fun c => units c.toNat

/-- What a character behind a backslash stands for, unless a longer escape begins with it. A line
break stands for nothing, and a character that makes no escape for itself. -/
def escaped? : Char → Option (List Nat)
  | 'b' => some [8]
  | 't' => some [9]
  | 'n' => some [10]
  | 'v' => some [11]
  | 'f' => some [12]
  | 'r' => some [13]
  | '\n' | '\r' | '\u2028' | '\u2029' => some []
  | c => if c.isDigit || c = 'x' || c = 'u' then none else some (units c.toNat)

/-- A value behind these units. -/
def behind (before : List Nat) : List Nat × List Char → List Nat × List Char
  | (value, rest) => (before ++ value, rest)

mutual
/-- The units up to the quote that ends the literal, and what stands behind it. -/
def content (quote : Char) : List Char → Option (List Nat × List Char)
  | [] => none
  | c :: cs =>
    if c = quote then some ([], cs)
    else if c = '\\' then escape quote cs
    else if c = '\n' || c = '\r' then none
    else (content quote cs).map (behind (units c.toNat))

/-- The same behind a backslash. -/
def escape (quote : Char) : List Char → Option (List Nat × List Char)
  | 'u' :: '\x7b' :: cs => braced quote none cs
  | 'u' :: a :: b :: c :: d :: cs =>
    (hexNumber? [a, b, c, d]).bind fun n => (content quote cs).map (behind [n])
  | 'x' :: a :: b :: cs => (hexNumber? [a, b]).bind fun n => (content quote cs).map (behind [n])
  | '\r' :: '\n' :: cs => content quote cs
  | '0' :: cs => if cs.head?.any Char.isDigit then none else (content quote cs).map (behind [0])
  | c :: cs => (escaped? c).bind fun before => (content quote cs).map (behind before)
  | [] => none

/-- The same behind the brace that opens a code point, of which some digits have been read. -/
def braced (quote : Char) (value : Option Nat) : List Char → Option (List Nat × List Char)
  | [] => none
  | c :: cs =>
    if c = '\x7d' then value.bind fun n => (content quote cs).map (behind (units n))
    else (hexValue? c).bind fun digit =>
      let n := value.getD 0 * 16 + digit
      if n ≤ 0x10FFFF then braced quote (some n) cs else none
end

/-- The value of the literal at the start of a text, and what stands behind it. -/
def literal? : List Char → Option (List Nat × List Char)
  | '"' :: cs => content '"' cs
  | '\'' :: cs => content '\'' cs
  | _ => none

/-- Two units for one character of the text, and one for four. -/
example : literal? "'\\x41\\u\x7b1F600\x7d');".toList =
    some ([0x41, 0xD83D, 0xDE00], [')', ';']) := by
  decide +kernel

/-! ## Lengths -/

theorem length_units_pos (n : Nat) : 1 ≤ (units n).length := by
  rw [units]
  split <;> simp

theorem length_units_le (n : Nat) : (units n).length ≤ 2 := by
  rw [units]
  split <;> simp

@[simp] theorem textUnits_nil : textUnits [] = [] := rfl

@[simp] theorem textUnits_cons (c : Char) (cs : List Char) :
    textUnits (c :: cs) = units c.toNat ++ textUnits cs :=
  List.flatMap_cons

@[simp] theorem textUnits_append (a b : List Char) :
    textUnits (a ++ b) = textUnits a ++ textUnits b :=
  List.flatMap_append

theorem length_escaped?_le {c : Char} {before : List Nat} (h : escaped? c = some before) :
    before.length ≤ (units c.toNat).length := by
  unfold escaped? at h
  split at h
  case h_11 =>
    split at h
    · cases h
    · cases h
      exact Nat.le_refl _
  all_goals
    cases h
    simp [units]

theorem exists_of_map_behind {before value : List Nat} {rest : List Char}
    {read : Option (List Nat × List Char)} (h : read.map (behind before) = some (value, rest)) :
    ∃ later, read = some (later, rest) ∧ value = before ++ later := by
  obtain ⟨⟨later, rest'⟩, hread, heq⟩ := Option.map_eq_some_iff.1 h
  cases heq
  exact ⟨later, hread, rfl⟩

variable {quote : Char}

mutual
/-- No literal has a value longer than its text, and an escape takes a character more. -/
theorem length_content_le : (cs : List Char) → {value : List Nat} → {rest : List Char} →
    content quote cs = some (value, rest) →
    value.length + (textUnits rest).length + 1 ≤ (textUnits cs).length
  | [], _, _, h => by cases h
  | c :: cs, value, rest, h => by
      have hpos := length_units_pos c.toNat
      rw [textUnits_cons, List.length_append]
      rw [content] at h
      split at h
      · cases h
        simp only [List.length_nil]
        omega
      split at h
      · have hrest := length_escape_le cs h
        omega
      split at h
      · cases h
      · obtain ⟨later, hlater, rfl⟩ := exists_of_map_behind h
        have hrest := length_content_le cs hlater
        rw [List.length_append]
        omega

theorem length_escape_le : (cs : List Char) → {value : List Nat} → {rest : List Char} →
    escape quote cs = some (value, rest) →
    value.length + (textUnits rest).length + 1 ≤ (textUnits cs).length
  | cs, value, rest, h => by
      unfold escape at h
      split at h
      next cs =>
        have hrest := length_braced_le none cs h
        simp only [textUnits_cons, List.length_append]
        have hu := length_units_pos 'u'.toNat
        omega
      next a b c d cs _ =>
        obtain ⟨n, -, h⟩ := Option.bind_eq_some_iff.1 h
        obtain ⟨later, hlater, rfl⟩ := exists_of_map_behind h
        have hrest := length_content_le cs hlater
        have hu := length_units_pos 'u'.toNat
        simp only [textUnits_cons, List.length_append, List.length_singleton]
        omega
      next a b cs =>
        obtain ⟨n, -, h⟩ := Option.bind_eq_some_iff.1 h
        obtain ⟨later, hlater, rfl⟩ := exists_of_map_behind h
        have hrest := length_content_le cs hlater
        have hx := length_units_pos 'x'.toNat
        simp only [textUnits_cons, List.length_append, List.length_singleton]
        omega
      next cs =>
        have hrest := length_content_le cs h
        simp only [textUnits_cons, List.length_append]
        omega
      next cs =>
        split at h
        · cases h
        obtain ⟨later, hlater, rfl⟩ := exists_of_map_behind h
        have hrest := length_content_le cs hlater
        have hzero := length_units_pos '0'.toNat
        simp only [textUnits_cons, List.length_append, List.length_singleton]
        omega
      next c cs _ _ _ _ _ =>
        obtain ⟨before, hbefore, h⟩ := Option.bind_eq_some_iff.1 h
        obtain ⟨later, hlater, rfl⟩ := exists_of_map_behind h
        have hrest := length_content_le cs hlater
        have hc := length_escaped?_le hbefore
        simp only [textUnits_cons, List.length_append]
        omega
      next => cases h

theorem length_braced_le (value : Option Nat) : (cs : List Char) → {text : List Nat} →
    {rest : List Char} → braced quote value cs = some (text, rest) →
    text.length + (textUnits rest).length ≤ (textUnits cs).length
  | [], _, _, h => by cases h
  | c :: cs, text, rest, h => by
      have hpos := length_units_pos c.toNat
      rw [textUnits_cons, List.length_append]
      rw [braced] at h
      split at h
      · obtain ⟨n, -, h⟩ := Option.bind_eq_some_iff.1 h
        obtain ⟨later, hlater, rfl⟩ := exists_of_map_behind h
        have hrest := length_content_le cs hlater
        have hn := length_units_le n
        rw [List.length_append]
        omega
      · obtain ⟨digit, -, h⟩ := Option.bind_eq_some_iff.1 h
        dsimp only at h
        split at h
        · have hrest := length_braced_le _ cs h
          omega
        · cases h
end

/-! ## Texts between double quotes -/

theorem content_cons {c : Char} (hquote : c ≠ '"') (hbackslash : c ≠ '\\') (hcontrol : 32 ≤ c.toNat)
    (cs : List Char) : content '"' (c :: cs) = (content '"' cs).map (behind (units c.toNat)) := by
  have hbreak : c ≠ '\n' ∧ c ≠ '\r' := by
    constructor <;> rintro rfl <;> exact absurd hcontrol (by decide)
  simp [content, hquote, hbackslash, hbreak]

theorem content_eq_textUnits_iff {cs : List Char} (h : ControlFree cs) (rest : List Char) :
    content '"' (cs ++ '"' :: rest) = some (textUnits cs, rest) ↔ '"' ∉ cs ∧ '\\' ∉ cs := by
  induction cs with
  | nil => simp [content]
  | cons c cs ih =>
      obtain ⟨hc, hcs⟩ := controlFree_cons.1 h
      by_cases hquote : c = '"'
      · subst hquote
        refine iff_of_false (fun hread => ?_) (by simp)
        rw [List.cons_append, content, if_pos rfl] at hread
        have hrest := congrArg List.length (Prod.mk.inj (Option.some.inj hread)).2
        simp only [List.length_append, List.length_cons] at hrest
        omega
      by_cases hbackslash : c = '\\'
      · subst hbackslash
        refine iff_of_false (fun hread => ?_) (by simp)
        rw [List.cons_append, content, if_neg hquote, if_pos rfl] at hread
        -- The backslash is missing in the value, which cannot make up for it.
        have hlength := length_escape_le _ hread
        have hslash : (units '\\'.toNat).length = 1 := rfl
        have hend : (units '"'.toNat).length = 1 := rfl
        simp only [textUnits_append, textUnits_cons, List.length_append] at hlength
        omega
      · rw [List.cons_append, content_cons hquote hbackslash hc, textUnits_cons]
        simp only [List.mem_cons, Ne.symm hquote, Ne.symm hbackslash, false_or, ← ih hcs]
        constructor
        · intro hread
          obtain ⟨later, hlater, heq⟩ := exists_of_map_behind hread
          rw [hlater, List.append_cancel_left heq]
        · intro hread
          rw [hread]
          rfl

/-- A text without control characters, put between double quotes as it is, stands for itself
exactly if nothing in it needs an escape. -/
theorem literal?_between_quotes_iff {cs : List Char} (h : ControlFree cs) :
    literal? ('"' :: (cs ++ ['"'])) = some (textUnits cs, []) ↔ '"' ∉ cs ∧ '\\' ∉ cs :=
  content_eq_textUnits_iff h []

end Bindery.JavaScript
