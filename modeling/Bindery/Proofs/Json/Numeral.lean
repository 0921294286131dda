import Bindery.Json.Reader
import Bindery.Proofs.Text.Occurrences

/-!
# The grammar of numbers

`Numeral.Spelt` says how numbers are written in JSON text. `Numeral.Spelt.scan`: a number is scanned
to its end. `Numeral.spelt_of_scan`: nothing else is.
-/

namespace Bindery.Json

open Text

structure IsDigits (cs : List Char) : Prop where
  ne_nil : cs ≠ []
  isDigit : ∀ c ∈ cs, c.isDigit = true

/-- A single zero, or digits that start with another one. -/
structure IsWhole (cs : List Char) : Prop extends IsDigits cs where
  canonical : ∀ ds, cs = '0' :: ds → ds = []

namespace Numeral

def digitValues (cs : List Char) : List Nat :=
  cs.map fun c => c.toNat - '0'.toNat

inductive FractionSpelt : List Nat → List Char → Prop where
  | absent : FractionSpelt [] []
  | digits {ds} : IsDigits ds → FractionSpelt (digitValues ds) ('.' :: ds)

inductive ExponentSpelt : Option (Bool × List Nat) → List Char → Prop where
  | absent : ExponentSpelt none []
  | plain {mark ds} : mark = 'e' ∨ mark = 'E' → IsDigits ds →
      ExponentSpelt (some (false, digitValues ds)) (mark :: ds)
  | plus {mark ds} : mark = 'e' ∨ mark = 'E' → IsDigits ds →
      ExponentSpelt (some (false, digitValues ds)) (mark :: '+' :: ds)
  | minus {mark ds} : mark = 'e' ∨ mark = 'E' → IsDigits ds →
      ExponentSpelt (some (true, digitValues ds)) (mark :: '-' :: ds)

def sign (negative : Bool) : List Char :=
  if negative then ['-'] else []

inductive Spelt : Numeral → List Char → Prop where
  | intro {negative whole fraction exponent f e} : IsWhole whole → FractionSpelt fraction f →
      ExponentSpelt exponent e →
      Spelt ⟨negative, digitValues whole, fraction, exponent⟩ (sign negative ++ (whole ++ (f ++ e)))

end Numeral

/-! ## Scanning -/

/-- A digit is that of a number below ten. -/
theorem exists_digitChar {c : Char} (h : c.isDigit = true) :
    ∃ d < 10, c = Nat.digitChar d ∧ c.toNat - '0'.toNat = d := by
  obtain ⟨hlow, hhigh⟩ := Bool.and_eq_true_iff.1 h
  have hge : 48 ≤ c.toNat := UInt32.le_iff_toNat_le.1 (of_decide_eq_true hlow)
  have hle : c.toNat ≤ 57 := UInt32.le_iff_toNat_le.1 (of_decide_eq_true hhigh)
  have hdigit : ∀ d < 10, (Nat.digitChar d).toNat = d + 48 := by decide
  refine ⟨c.toNat - 48, by omega, Char.toNat_inj.1 ?_, rfl⟩
  rw [hdigit _ (by omega)]
  omega

namespace Numeral

variable {ds rest : List Char}

theorem digitValues_ne_nil (h : IsDigits ds) : digitValues ds ≠ [] := by
  simpa [digitValues] using h.ne_nil

theorem digits_append (h : ∀ c ∈ ds, c.isDigit = true)
    (hrest : Begins (Char.isDigit · = false) rest) :
    digits (ds ++ rest) = (digitValues ds, rest) := by
  induction ds with
  | nil =>
      cases rest with
      | nil => rfl
      | cons c rest => simp [digits, digit?, hrest c rfl, digitValues]
  | cons c ds ih =>
      obtain ⟨hc, hds⟩ := List.forall_mem_cons.1 h
      rw [List.cons_append, digits, digit?, if_pos hc, ih hds]
      rfl

/-- What a digit, a point or an exponent does not follow. -/
def Ends (rest : List Char) : Prop :=
  Begins (fun c => c.isDigit = false ∧ c ≠ '.' ∧ c ≠ 'e' ∧ c ≠ 'E') rest

theorem ends_nil : Ends [] := begins_nil

theorem scanWhole_append (h : IsWhole ds) (hrest : Begins (Char.isDigit · = false) rest) :
    scanWhole (ds ++ rest) = some (digitValues ds, rest) := by
  rw [scanWhole, digits_append h.isDigit hrest]
  split
  next heq => exact absurd (Prod.ext_iff.1 heq).1 (digitValues_ne_nil h.toIsDigits)
  next d values _ heq =>
    obtain ⟨c, cs, rfl⟩ := List.exists_cons_of_ne_nil h.ne_nil
    obtain ⟨hzero, hvalues⟩ := List.cons.inj (Prod.ext_iff.1 heq).1
    obtain ⟨d, -, rfl, hd⟩ := exists_digitChar (h.isDigit c List.mem_cons_self)
    obtain rfl : d = 0 := hd.symm.trans hzero
    obtain rfl : cs = [] := h.canonical cs rfl
    cases hvalues
  next => rfl

theorem scanFraction_append {fraction : List Nat} {f : List Char} (h : FractionSpelt fraction f)
    (hrest : Begins (fun c => c.isDigit = false ∧ c ≠ '.') rest) :
    scanFraction (f ++ rest) = some (fraction, rest) := by
  cases h with
  | absent =>
      rw [List.nil_append, scanFraction]
      rintro cs rfl
      exact (hrest '.' rfl).2 rfl
  | @digits ds hds =>
      rw [List.cons_append, scanFraction, digits_append hds.isDigit fun c hc => (hrest c hc).1]
      split
      next heq => exact absurd (Prod.ext_iff.1 heq).1 (digitValues_ne_nil hds)
      next => rfl

theorem scanExponent_cons {mark : Char} {cs : List Char} {negative : Bool}
    (hmark : mark = 'e' ∨ mark = 'E') (hds : IsDigits ds)
    (hsign : scanSign cs = (negative, ds ++ rest)) (hrest : Ends rest) :
    scanExponent (mark :: cs) = some (some (negative, digitValues ds), rest) := by
  have hdigits := digits_append hds.isDigit fun c hc => (hrest c hc).1
  simp only [scanExponent, hmark, hsign, hdigits, Bool.or_eq_true, decide_eq_true_eq, if_true]
  split
  next heq => exact absurd (Prod.ext_iff.1 heq).1 (digitValues_ne_nil hds)
  next heq =>
    obtain ⟨rfl, rfl⟩ := Prod.mk.inj heq
    rfl

theorem scanExponent_append {exponent : Option (Bool × List Nat)} {e : List Char}
    (h : ExponentSpelt exponent e) (hrest : Ends rest) :
    scanExponent (e ++ rest) = some (exponent, rest) := by
  cases h with
  | absent =>
      cases rest with
      | nil => rfl
      | cons c rest =>
          obtain ⟨-, -, hsmall, hcapital⟩ := hrest c rfl
          simp [scanExponent, hsmall, hcapital]
  | @plain mark ds hmark hds =>
      refine scanExponent_cons hmark hds ?_ hrest
      obtain ⟨c, cs, rfl⟩ := List.exists_cons_of_ne_nil hds.ne_nil
      have hc := hds.isDigit c List.mem_cons_self
      rw [List.cons_append, scanSign]
      · rfl
      all_goals
        rintro ds heq
        obtain ⟨rfl, -⟩ := List.cons.inj heq
        cases hc
  | plus hmark hds => exact scanExponent_cons hmark hds rfl hrest
  | minus hmark hds => exact scanExponent_cons hmark hds rfl hrest

theorem FractionSpelt.begins {fraction : List Nat} {f : List Char} (h : FractionSpelt fraction f) :
    Begins (· = '.') f := by
  cases h with
  | absent => exact begins_nil
  | digits _ => exact begins_cons (p := (· = '.')) rfl _

theorem ExponentSpelt.begins {exponent : Option (Bool × List Nat)} {e : List Char}
    (h : ExponentSpelt exponent e) : Begins (fun c => c = 'e' ∨ c = 'E') e := by
  cases h with
  | absent => exact begins_nil
  | plain hmark _ => exact begins_cons hmark _
  | plus hmark _ => exact begins_cons hmark _
  | minus hmark _ => exact begins_cons hmark _

/-- A number is scanned to its end. -/
theorem Spelt.scan {x : Numeral} {token : List Char} (h : x.Spelt token) (hrest : Ends rest) :
    scan (token ++ rest) = some (x, rest) := by
  obtain @⟨negative, whole, fraction, exponent, f, e, hwhole, hf, he⟩ := h
  have hexponent : Begins (fun c => c.isDigit = false ∧ c ≠ '.') (e ++ rest) := by
    refine Begins.append (fun c hc => ?_) fun c hc => ⟨(hrest c hc).1, (hrest c hc).2.1⟩
    rcases he.begins c hc with rfl | rfl <;> decide
  have hfraction : Begins (Char.isDigit · = false) (f ++ (e ++ rest)) := by
    refine Begins.append (fun c hc => ?_) fun c hc => (hexponent c hc).1
    rw [hf.begins c hc]
    rfl
  have hparts := scanWhole_append hwhole hfraction
  have hsign : ∀ cs, whole ++ (f ++ (e ++ rest)) ≠ '-' :: cs := by
    obtain ⟨c, cs, rfl⟩ := List.exists_cons_of_ne_nil hwhole.ne_nil
    rintro ds heq
    obtain ⟨rfl, -⟩ := List.cons.inj heq
    cases hwhole.isDigit _ List.mem_cons_self
  cases negative with
  | false =>
      simp only [sign, Bool.false_eq_true, if_false, List.nil_append, List.append_assoc]
      rw [Numeral.scan]
      · simp [hparts, scanFraction_append hf hexponent, scanExponent_append he hrest]
      · exact hsign
  | true =>
      simp [Numeral.scan, sign, hparts, scanFraction_append hf hexponent,
        scanExponent_append he hrest]

/-! ### What was scanned -/

theorem digits_eq {cs : List Char} {values : List Nat} (h : digits cs = (values, rest)) :
    ∃ ds, (∀ c ∈ ds, c.isDigit = true) ∧ values = digitValues ds ∧ cs = ds ++ rest := by
  induction cs generalizing values with
  | nil =>
      obtain ⟨rfl, rfl⟩ := Prod.mk.inj h
      exact ⟨[], nofun, rfl, rfl⟩
  | cons c cs ih =>
      rw [digits, digit?] at h
      by_cases hc : c.isDigit = true
      · rw [if_pos hc] at h
        obtain ⟨rfl, hrest⟩ := Prod.mk.inj h
        obtain ⟨ds, hds, hvalues, rfl⟩ := ih (Prod.ext rfl hrest)
        exact ⟨c :: ds, List.forall_mem_cons.2 ⟨hc, hds⟩,
          congrArg ((c.toNat - '0'.toNat) :: ·) hvalues, rfl⟩
      · rw [if_neg hc] at h
        obtain ⟨rfl, rfl⟩ := Prod.mk.inj h
        exact ⟨[], nofun, rfl, rfl⟩

theorem scanWhole_eq {cs : List Char} {values : List Nat} (h : scanWhole cs = some (values, rest)) :
    ∃ ds, IsWhole ds ∧ values = digitValues ds ∧ cs = ds ++ rest := by
  rw [scanWhole] at h
  rcases hdigits : digits cs with ⟨values', rest'⟩
  obtain ⟨ds, hds, rfl, rfl⟩ := digits_eq hdigits
  rw [hdigits] at h
  split at h
  next => cases h
  next => cases h
  next hne hcanonical =>
    obtain ⟨rfl, rfl⟩ := Prod.mk.inj (Option.some.inj h)
    refine ⟨ds, ⟨⟨?_, hds⟩, ?_⟩, rfl, rfl⟩
    · rintro rfl
      exact hne _ rfl
    · rintro (_ | ⟨d, ds⟩) rfl
      · rfl
      · exact absurd rfl (hcanonical _ _ _)

theorem scanFraction_eq {cs : List Char} {fraction : List Nat}
    (h : scanFraction cs = some (fraction, rest)) :
    ∃ f, FractionSpelt fraction f ∧ cs = f ++ rest := by
  rw [scanFraction.eq_def] at h
  split at h
  next cs =>
    rcases hdigits : digits cs with ⟨values, rest'⟩
    obtain ⟨ds, hds, rfl, rfl⟩ := digits_eq hdigits
    rw [hdigits] at h
    split at h
    next => cases h
    next hne =>
      obtain ⟨rfl, rfl⟩ := Prod.mk.inj (Option.some.inj h)
      refine ⟨'.' :: ds, .digits ⟨?_, hds⟩, rfl⟩
      rintro rfl
      exact hne _ rfl
  next =>
    obtain ⟨rfl, rfl⟩ := Prod.mk.inj (Option.some.inj h)
    exact ⟨[], .absent, rfl⟩

theorem scanExponent_eq {cs : List Char} {exponent : Option (Bool × List Nat)}
    (h : scanExponent cs = some (exponent, rest)) :
    ∃ e, ExponentSpelt exponent e ∧ cs = e ++ rest := by
  cases cs with
  | nil =>
      obtain ⟨rfl, rfl⟩ := Prod.mk.inj (Option.some.inj h)
      exact ⟨[], .absent, rfl⟩
  | cons mark cs =>
      rw [scanExponent] at h
      by_cases hmark : mark = 'e' ∨ mark = 'E'
      · simp only [hmark, Bool.or_eq_true, decide_eq_true_eq, if_true] at h
        rcases hsign : scanSign cs with ⟨negative, digitsText⟩
        rcases hdigits : digits digitsText with ⟨values, rest'⟩
        obtain ⟨ds, hds, rfl, rfl⟩ := digits_eq hdigits
        simp only [hsign, hdigits] at h
        split at h
        next => cases h
        next hne heq =>
          obtain ⟨rfl, rfl⟩ := Prod.mk.inj heq
          obtain ⟨rfl, rfl⟩ := Prod.mk.inj (Option.some.inj h)
          have hds : IsDigits ds := by
            refine ⟨?_, hds⟩
            rintro rfl
            exact hne rfl
          rw [scanSign.eq_def] at hsign
          split at hsign
          next =>
            obtain ⟨rfl, rfl⟩ := Prod.mk.inj hsign
            exact ⟨mark :: '-' :: ds, .minus hmark hds, rfl⟩
          next =>
            obtain ⟨rfl, rfl⟩ := Prod.mk.inj hsign
            exact ⟨mark :: '+' :: ds, .plus hmark hds, rfl⟩
          next =>
            obtain ⟨rfl, rfl⟩ := Prod.mk.inj hsign
            exact ⟨mark :: ds, .plain hmark hds, rfl⟩
      · simp only [hmark, Bool.or_eq_true, decide_eq_true_eq, if_false] at h
        obtain ⟨rfl, rfl⟩ := Prod.mk.inj (Option.some.inj h)
        exact ⟨[], .absent, rfl⟩

theorem spelt_of_parts (negative : Bool) {cs cs₁ cs₂ : List Char} {whole fraction : List Nat}
    {exponent : Option (Bool × List Nat)} (hwhole : scanWhole cs = some (whole, cs₁))
    (hfraction : scanFraction cs₁ = some (fraction, cs₂))
    (hexponent : scanExponent cs₂ = some (exponent, rest)) :
    ∃ token, Spelt ⟨negative, whole, fraction, exponent⟩ (sign negative ++ token) ∧
      cs = token ++ rest := by
  obtain ⟨ds, hds, rfl, rfl⟩ := scanWhole_eq hwhole
  obtain ⟨f, hf, rfl⟩ := scanFraction_eq hfraction
  obtain ⟨e, he, rfl⟩ := scanExponent_eq hexponent
  exact ⟨ds ++ (f ++ e), .intro hds hf he, by simp⟩

/-- What is scanned as a number is one. -/
theorem spelt_of_scan {cs : List Char} {x : Numeral} (h : Numeral.scan cs = some (x, rest)) :
    ∃ token, x.Spelt token ∧ cs = token ++ rest := by
  rw [Numeral.scan.eq_def] at h
  split at h
  next hsign =>
    simp only [Option.bind_eq_bind, Option.bind_eq_some_iff, Prod.exists] at h
    obtain ⟨whole, cs₁, hwhole, fraction, cs₂, hfraction, exponent, cs₃, hexponent, h⟩ := h
    obtain ⟨rfl, rfl⟩ := Prod.mk.inj (Option.some.inj h)
    split at hsign
    next =>
      obtain ⟨rfl, rfl⟩ := Prod.mk.inj hsign
      obtain ⟨token, hspelt, rfl⟩ := spelt_of_parts true hwhole hfraction hexponent
      exact ⟨'-' :: token, hspelt, rfl⟩
    next =>
      obtain ⟨rfl, rfl⟩ := Prod.mk.inj hsign
      exact spelt_of_parts false hwhole hfraction hexponent

/-- The number that a text spells. -/
theorem Spelt.unique {x y : Numeral} {token : List Char} (hx : x.Spelt token) (hy : y.Spelt token) :
    x = y := by
  have hscan := (hx.scan ends_nil).symm.trans (hy.scan ends_nil)
  exact (Prod.mk.inj (Option.some.inj hscan)).1

end Numeral

end Bindery.Json
