import Bindery.Json.Printer
import Bindery.Proofs.Json.Numeral

/-!
# Integers in JSON text

`Numeral.Spelt.integer?_eq_some_iff`: the numbers that are integers are the texts of the integers
that a word of 64 bits holds. `Token.isWord_iff` says what these texts look like.
-/

namespace Bindery.Json

/-- An integer that a word of 64 bits holds, with a sign or without. -/
def FitsWord (i : Int) : Prop := -(Nat.pow 2 63 : Int) ≤ i ∧ i < Nat.pow 2 64

instance (i : Int) : Decidable (FitsWord i) :=
  inferInstanceAs (Decidable (_ ∧ _))

theorem integerText_eq (i : Int) :
    integerText i = (if i < 0 then ['-'] else []) ++ Nat.toDigits 10 i.natAbs := by
  rw [integerText, Int.toString_eq_repr, Int.repr_eq_if]
  by_cases h : i < 0
  · have habs : (-i).toNat = i.natAbs := by omega
    rw [if_neg (by omega), if_pos h, Nat.repr_eq_ofList_toDigits, habs]
    simp
  · have habs : i.toNat = i.natAbs := by omega
    rw [if_pos (by omega), if_neg h, Nat.repr_eq_ofList_toDigits, habs]
    simp

theorem integerText_natCast (n : Nat) : integerText n = Nat.toDigits 10 n := by
  rw [integerText_eq, if_neg (by omega), List.nil_append, Int.natAbs_natCast]

theorem integerText_neg {n : Nat} (h : 0 < n) : integerText (-n) = '-' :: Nat.toDigits 10 n := by
  rw [integerText_eq, if_pos (by omega), List.singleton_append, Int.natAbs_neg, Int.natAbs_natCast]

theorem isDigit_of_mem_toDigits {n : Nat} : ∀ c ∈ Nat.toDigits 10 n, c.isDigit = true :=
  fun _ hc => Nat.isDigit_of_mem_toDigits (by decide) (by decide) hc

/-- The text of an integer has digits, and a sign in front at most. -/
theorem mem_integerText {i : Int} {c : Char} (h : c ∈ integerText i) :
    c = '-' ∨ c.isDigit = true := by
  rw [integerText_eq, List.mem_append] at h
  rcases h with h | h
  · split at h
    · exact .inl (List.mem_singleton.1 h)
    · cases h
  · exact .inr (isDigit_of_mem_toDigits c h)

theorem not_mem_integerText {i : Int} {c : Char} (hsign : c ≠ '-') (hdigit : c.isDigit = false) :
    c ∉ integerText i := by
  intro h
  rcases mem_integerText h with h | h
  · exact hsign h
  · rw [hdigit] at h
    cases h

/-- The value of digits with a sign in front at most. -/
def integerValue : List Char → Int
  | '-' :: ds => -(Nat.ofDigitChars 10 ds 0 : Int)
  | ds => Nat.ofDigitChars 10 ds 0

theorem integerValue_of_isDigits {ds : List Char} (h : ∀ c ∈ ds, c.isDigit = true) :
    integerValue ds = Nat.ofDigitChars 10 ds 0 := by
  rw [integerValue.eq_def]
  split
  next => cases h '-' List.mem_cons_self
  next => rfl

theorem integerValue_integerText (i : Int) : integerValue (integerText i) = i := by
  rw [integerText_eq]
  by_cases h : i < 0
  · rw [if_pos h, List.singleton_append, integerValue, Nat.ofDigitChars_ten_toDigits]
    omega
  · rw [if_neg h, List.nil_append, integerValue_of_isDigits isDigit_of_mem_toDigits,
      Nat.ofDigitChars_ten_toDigits]
    omega

/-! ## Numbers that are integers -/

namespace Numeral

variable {ds : List Char}

theorem ofDigits_digitValues (ds : List Char) :
    ofDigits (digitValues ds) = Nat.ofDigitChars 10 ds 0 := by
  rw [digitValues, ofDigits, List.foldl_map, Nat.ofDigitChars_eq_foldl]
  simp only [Nat.mul_comm]

theorem toDigits_ofDigitChars_of_pos {n : Nat} (hn : 0 < n) (h : ∀ c ∈ ds, c.isDigit = true) :
    Nat.toDigits 10 (Nat.ofDigitChars 10 ds n) = Nat.toDigits 10 n ++ ds := by
  induction ds generalizing n with
  | nil => rw [Nat.ofDigitChars_nil, List.append_nil]
  | cons c ds ih =>
      obtain ⟨hc, hds⟩ := List.forall_mem_cons.1 h
      obtain ⟨d, hd, hchar, hvalue⟩ := exists_digitChar hc
      rw [Nat.ofDigitChars_cons, hvalue, ih (by omega) hds,
        ← Nat.toDigits_append_toDigits (by decide) hn hd, Nat.toDigits_of_lt_base hd, ← hchar,
        List.append_assoc, List.singleton_append]

/-- Digits without zeros in front are those of their number. -/
theorem toDigits_ofDigitChars (h : IsWhole ds) :
    Nat.toDigits 10 (Nat.ofDigitChars 10 ds 0) = ds := by
  obtain ⟨c, cs, rfl⟩ := List.exists_cons_of_ne_nil h.ne_nil
  obtain ⟨hc, hcs⟩ := List.forall_mem_cons.1 h.isDigit
  obtain ⟨d, hd, rfl, hvalue⟩ := exists_digitChar hc
  rw [Nat.ofDigitChars_cons, hvalue, Nat.mul_zero, Nat.zero_add]
  rcases Nat.eq_zero_or_pos d with rfl | hpos
  · obtain rfl : cs = [] := h.canonical cs rfl
    rfl
  · rw [toDigits_ofDigitChars_of_pos hpos hcs, Nat.toDigits_of_lt_base hd, List.singleton_append]

/-- Digits do not begin with a zero, unless it is alone. -/
theorem exists_toDigits_cons {n : Nat} (h : 0 < n) :
    ∃ c cs, Nat.toDigits 10 n = c :: cs ∧ c ≠ '0' := by
  induction n using Nat.strongRecOn with
  | ind n ih =>
      by_cases hsmall : n < 10
      · have hdigit : ∀ n < 10, 0 < n → n.digitChar ≠ '0' := by decide
        exact ⟨n.digitChar, [], Nat.toDigits_of_lt_base hsmall, hdigit n hsmall h⟩
      · obtain ⟨c, cs, hcons, hc⟩ := ih (n / 10) (by omega) (by omega)
        refine ⟨c, cs ++ [(n % 10).digitChar], ?_, hc⟩
        rw [Nat.toDigits_of_base_le (by decide) (by omega), hcons, List.cons_append]

theorem isWhole_toDigits (n : Nat) : IsWhole (Nat.toDigits 10 n) := by
  refine ⟨⟨Nat.toDigits_ne_nil, isDigit_of_mem_toDigits⟩, fun ds hds => ?_⟩
  rcases Nat.eq_zero_or_pos n with rfl | hpos
  · exact (List.cons.inj hds).2.symm
  · obtain ⟨c, cs, hcons, hc⟩ := exists_toDigits_cons hpos
    rw [hcons] at hds
    exact absurd (List.cons.inj hds).1 hc

theorem spelt_integerText (i : Int) :
    Spelt ⟨decide (i < 0), digitValues (Nat.toDigits 10 i.natAbs), [], none⟩ (integerText i) := by
  have htext :
      integerText i = sign (decide (i < 0)) ++ (Nat.toDigits 10 i.natAbs ++ ([] ++ [])) := by
    simp [integerText_eq, sign]
  rw [htext]
  exact .intro (isWhole_toDigits i.natAbs) .absent .absent

theorem integer?_of_fitsWord {i : Int} (h : FitsWord i) {whole : List Nat}
    (hwhole : ofDigits whole = i.natAbs) :
    integer? ⟨decide (i < 0), whole, [], none⟩ = some i := by
  obtain ⟨hlow, hhigh⟩ := h
  by_cases hnegative : i < 0
  · have hpositive : 0 < i.natAbs := by omega
    have hbound : i.natAbs ≤ Nat.pow 2 63 := by omega
    have hvalue : -(i.natAbs : Int) = i := by omega
    simp only [integer?, hwhole, hnegative, hpositive, hbound, hvalue, decide_true, Bool.and_self,
      if_true]
    rfl
  · have hbound : i.natAbs < Nat.pow 2 64 := by omega
    have hvalue : (i.natAbs : Int) = i := by omega
    simp only [integer?, hwhole, hnegative, hbound, hvalue, if_true]
    rfl

theorem fitsWord_of_integer? {x : Numeral} {i : Int} (h : x.integer? = some i) :
    FitsWord i ∧ ∃ whole, ofDigits whole = i.natAbs ∧ x = ⟨decide (i < 0), whole, [], none⟩ := by
  obtain ⟨negative, whole, fraction, exponent⟩ := x
  rw [integer?] at h
  split_ifs at h with hparts hpositive
  all_goals
    simp only [Bool.or_eq_true, Bool.not_eq_true', List.isEmpty_eq_false_iff, not_or,
      Option.isSome_iff_ne_none, not_not] at hparts
    obtain ⟨rfl, rfl⟩ := hparts
    simp only [Option.ite_none_right_eq_some, Option.some.injEq] at h
  · obtain ⟨hbound, rfl⟩ := h
    obtain rfl : negative = false := by simpa using hpositive
    refine ⟨⟨by omega, by omega⟩, whole, by simp, by simp⟩
  · obtain ⟨hbound, rfl⟩ := h
    obtain rfl : negative = true := by simpa using hpositive
    simp only [Bool.and_eq_true, decide_eq_true_eq] at hbound
    refine ⟨⟨by omega, by omega⟩, whole, by simp, ?_⟩
    simp [hbound.1]

theorem FractionSpelt.eq_nil {f : List Char} (h : FractionSpelt [] f) : f = [] := by
  generalize hnil : ([] : List Nat) = fraction at h
  cases h with
  | absent => rfl
  | digits hds => exact absurd hnil.symm (digitValues_ne_nil hds)

theorem FractionSpelt.eq_nil_of_not_mem {fraction : List Nat} {f : List Char}
    (h : FractionSpelt fraction f) (hpoint : '.' ∉ f) : f = [] := by
  cases h with
  | absent => rfl
  | digits _ => exact absurd List.mem_cons_self hpoint

theorem ExponentSpelt.eq_nil_of_not_mem {exponent : Option (Bool × List Nat)} {e : List Char}
    (h : ExponentSpelt exponent e) (hsmall : 'e' ∉ e) (hcapital : 'E' ∉ e) : e = [] := by
  cases e with
  | nil => rfl
  | cons mark e =>
      rcases h.begins mark rfl with rfl | rfl
      · exact absurd List.mem_cons_self hsmall
      · exact absurd List.mem_cons_self hcapital

theorem Spelt.eq_integerText {x : Numeral} {token : List Char} (h : x.Spelt token)
    (hpoint : '.' ∉ token) (hmark : 'e' ∉ token ∧ 'E' ∉ token) (hzero : token ≠ ['-', '0']) :
    token = integerText (integerValue token) := by
  obtain @⟨negative, whole, fraction, exponent, f, e, hwhole, hf, he⟩ := h
  simp only [List.mem_append, not_or] at hpoint hmark
  obtain rfl := hf.eq_nil_of_not_mem hpoint.2.2.1
  obtain rfl := he.eq_nil_of_not_mem hmark.1.2.2.2 hmark.2.2.2.2
  have hdigits := toDigits_ofDigitChars hwhole
  rw [List.append_nil, List.append_nil] at hzero ⊢
  cases negative with
  | false =>
      have hsign : sign false ++ whole = whole := rfl
      rw [hsign, integerValue_of_isDigits hwhole.isDigit, integerText_natCast, hdigits]
  | true =>
      have hsign : sign true ++ whole = '-' :: whole := rfl
      have hpos : 0 < Nat.ofDigitChars 10 whole 0 := by
        refine Nat.pos_of_ne_zero fun hnone => hzero ?_
        rw [hsign, ← hdigits, hnone]
        rfl
      rw [hsign, integerValue, integerText_neg hpos, hdigits]

/-- A number is an integer exactly if it is written as one that a word of 64 bits holds. -/
theorem Spelt.integer?_eq_some_iff {x : Numeral} {token : List Char} (h : x.Spelt token) {i : Int} :
    x.integer? = some i ↔ FitsWord i ∧ token = integerText i := by
  constructor
  · intro hi
    obtain ⟨hfits, digits, hdigits, rfl⟩ := fitsWord_of_integer? hi
    refine ⟨hfits, ?_⟩
    obtain @⟨negative, whole, fraction, exponent, f, e, hwhole, hf, he⟩ := h
    cases he
    rw [hf.eq_nil, ← toDigits_ofDigitChars hwhole, ← ofDigits_digitValues, hdigits, integerText_eq]
    simp [sign]
  · rintro ⟨hfits, rfl⟩
    rw [h.unique (spelt_integerText i), integer?_of_fitsWord hfits]
    rw [ofDigits_digitValues, Nat.ofDigitChars_ten_toDigits]

end Numeral

/-- A number as it stands in a text. -/
structure Token where
  chars : List Char
  numeral : Numeral
  spelt : numeral.Spelt chars

namespace Token

/-- The number has no fraction and no exponent, a word of 64 bits holds it, and it is not the zero
with a sign. -/
structure IsWord (t : Token) : Prop where
  noFraction : '.' ∉ t.chars
  noExponent : 'e' ∉ t.chars ∧ 'E' ∉ t.chars
  unsignedZero : t.chars ≠ ['-', '0']
  fits : FitsWord (integerValue t.chars)

variable {t : Token}

theorem isWord_iff : t.IsWord ↔ ∃ i, FitsWord i ∧ t.chars = integerText i := by
  constructor
  · intro h
    exact ⟨_, h.fits, t.spelt.eq_integerText h.noFraction h.noExponent h.unsignedZero⟩
  · rintro ⟨i, hfits, htext⟩
    refine ⟨?_, ⟨?_, ?_⟩, ?_, ?_⟩
    all_goals rw [htext]
    · exact not_mem_integerText (by decide) (by decide)
    · exact not_mem_integerText (by decide) (by decide)
    · exact not_mem_integerText (by decide) (by decide)
    · intro hzero
      have hvalue := integerValue_integerText i
      rw [hzero] at hvalue
      subst hvalue
      cases hzero
    · rwa [integerValue_integerText]

/-- Such a number is read as an integer with its text. -/
theorem exists_integer_of_isWord (h : t.IsWord) :
    ∃ i, t.numeral.node = .integer i ∧ integerText i = t.chars := by
  obtain ⟨i, hfits, htext⟩ := isWord_iff.1 h
  refine ⟨i, ?_, htext.symm⟩
  rw [Numeral.node, t.spelt.integer?_eq_some_iff.2 ⟨hfits, htext⟩]

/-- No other number is read as an integer. -/
theorem node_ne_integer (h : ¬ t.IsWord) (i : Int) : t.numeral.node ≠ .integer i := by
  intro hnode
  rw [Numeral.node] at hnode
  split at hnode
  next heq => exact h (isWord_iff.2 ⟨_, t.spelt.integer?_eq_some_iff.1 heq⟩)
  next => split at hnode <;> cases hnode

end Token

end Bindery.Json
