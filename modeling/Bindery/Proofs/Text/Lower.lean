import Bindery.Proofs.Text.Case
import Bindery.Text.Blank

/-!
# Lower-case letters

A lower-case letter is no upper-case letter and no blank, and it is its own lower case. Beyond
ASCII the tables say so: their runs have no code point in common.
-/

namespace Bindery.Text

/-! ## Runs -/

/-- The code points on a run. -/
def runPoints : Nat × Nat × Nat → List Nat
  | (first, last, step) => List.range' first ((last - first) / step + 1) step

/-- Numbers as the bits of one, so that whether two tables meet is a single conjunction. -/
def bitsOf (ns : List Nat) : Nat :=
  ns.foldr (fun n bits => bits ||| Nat.pow 2 n) 0

theorem mem_runPoints {n : Nat} {run : Nat × Nat × Nat} (h : onRun n run = true) :
    n ∈ runPoints run := by
  obtain ⟨first, last, step⟩ := run
  simp only [onRun, Bool.and_eq_true, decide_eq_true_eq, beq_iff_eq] at h
  obtain ⟨⟨hfirst, hlast⟩, hstep⟩ := h
  have hcount : (n - first) / step ≤ (last - first) / step :=
    Nat.div_le_div_right (Nat.sub_le_sub_right hlast first)
  have hn : step * ((n - first) / step) = n - first :=
    Nat.mul_div_cancel' (Nat.dvd_of_mod_eq_zero hstep)
  exact List.mem_range'.2 ⟨(n - first) / step, by omega, by omega⟩

theorem testBit_bitsOf {n : Nat} {ns : List Nat} (h : n ∈ ns) : (bitsOf ns).testBit n = true := by
  induction ns with
  | nil => cases h
  | cons m ns ih =>
      rw [bitsOf, List.foldr_cons, Nat.testBit_or, Bool.or_eq_true]
      rcases List.mem_cons.1 h with rfl | h
      · exact .inr (Nat.testBit_two_pow_self)
      · exact .inl (ih h)

/-- A code point on a run of one table is on no run of a table that has none of its bits. -/
theorem not_onRun_of_and_eq_zero {n : Nat} {runs others : List (Nat × Nat × Nat)}
    (h : bitsOf (runs.flatMap runPoints) &&& bitsOf (others.flatMap runPoints) = 0)
    (hn : runs.any (onRun n) = true) {other : Nat × Nat × Nat} (hother : other ∈ others) :
    onRun n other = false := by
  rw [Bool.eq_false_iff]
  intro hon
  obtain ⟨run, hrun, hrunOn⟩ := List.any_eq_true.1 hn
  have hbit := testBit_bitsOf (List.mem_flatMap.2 ⟨run, hrun, mem_runPoints hrunOn⟩)
  have hbit' := testBit_bitsOf (List.mem_flatMap.2 ⟨other, hother, mem_runPoints hon⟩)
  have hboth := congrArg (Nat.testBit · n) h
  simp only [Nat.testBit_and, hbit, hbit', Nat.zero_testBit] at hboth
  cases hboth

/-- White space beyond ASCII. -/
def blankRuns : List (Nat × Nat × Nat) := [
  (0x85, 0x85, 1), (0xA0, 0xA0, 1), (0x1680, 0x1680, 1), (0x2000, 0x200A, 1), (0x2028, 0x2029, 1),
  (0x202F, 0x202F, 1), (0x205F, 0x205F, 1), (0x3000, 0x3000, 1)]

theorem onRun_blankRuns {c : Char} (hc : ¬ c.toNat < 128) (h : isBlank c = true) :
    ∃ run ∈ blankRuns, onRun c.toNat run = true := by
  simp only [isBlank, Bool.or_eq_true, Bool.and_eq_true, decide_eq_true_eq, beq_iff_eq] at h
  simp only [blankRuns, List.mem_cons, List.not_mem_nil, or_false, exists_eq_or_imp,
    exists_eq_left, onRun, Bool.and_eq_true, decide_eq_true_eq, beq_iff_eq]
  omega

/-! ## Letters -/

theorem toLower_ne_nil (c : Char) : toLower c ≠ [] := by
  have hlong : ∀ entry ∈ CaseTable.toLowerLong, entry.2 ≠ [] := by decide
  rw [toLower]
  split
  · exact List.cons_ne_nil _ _
  · rw [mapped]
    split
    next hfind => simpa using hlong _ (List.mem_of_find?_eq_some hfind)
    next => split <;> exact List.cons_ne_nil _ _

section

variable {c : Char} (h : isLower c = true)

include h

theorem isLower_cases {p : Char → Prop}
    (hascii : ∀ n : Fin 128, (Char.ofNat n).isLower = true → p (Char.ofNat n))
    (hbeyond : ¬ c.toNat < 128 → CaseTable.lower.any (onRun c.toNat) = true → p c) : p c := by
  rw [isLower] at h
  split at h
  next hc => exact ascii_cases (p := fun c => c.isLower = true → p c) hascii hc h
  next hc => exact hbeyond hc h

theorem isUpper_of_isLower : isUpper c = false := by
  refine isLower_cases (p := fun c => isUpper c = false) h (by decide +kernel) fun hc hon => ?_
  rw [isUpper, if_neg hc, List.any_eq_false]
  intro run hrun
  rw [not_onRun_of_and_eq_zero (by decide +kernel) hon hrun]
  decide

theorem isBlank_of_isLower : isBlank c = false := by
  refine isLower_cases (p := fun c => isBlank c = false) h (by decide +kernel) fun hc hon => ?_
  rw [Bool.eq_false_iff]
  intro hblank
  obtain ⟨run, hrun, hb⟩ := onRun_blankRuns hc hblank
  rw [not_onRun_of_and_eq_zero (by decide +kernel) hon hrun] at hb
  cases hb

theorem toLower_of_isLower : toLower c = [c] := by
  refine isLower_cases (p := fun c => toLower c = [c]) h (by decide +kernel) fun hc hon => ?_
  have hlong : CaseTable.toLowerLong.find? (·.1 == c.toNat) = none := by
    rw [List.find?_eq_none]
    intro entry hentry heq
    have hpoint : (entry.1, entry.1, 1) ∈ CaseTable.toLowerLong.map fun e => (e.1, e.1, 1) :=
      List.mem_map_of_mem hentry
    have hoff := not_onRun_of_and_eq_zero (by decide +kernel) hon hpoint
    rw [← beq_iff_eq.1 heq] at hoff
    simp [onRun] at hoff
  have hshift : ∀ run ∈ CaseTable.toLowerShift,
      onRun c.toNat (run.1, run.2.1, run.2.2.1) = false := by
    intro run hrun
    have hshifted : (run.1, run.2.1, run.2.2.1) ∈
        CaseTable.toLowerShift.map fun run => (run.1, run.2.1, run.2.2.1) :=
      List.mem_map_of_mem hrun
    exact not_onRun_of_and_eq_zero (by decide +kernel) hon hshifted
  rw [toLower, if_neg hc, mapped, hlong]
  simp only
  split
  next first last step shift hfound =>
    have hfalse := hshift _ (List.mem_of_find?_eq_some hfound)
    have htrue := List.find?_some hfound
    exact absurd htrue (by simp [hfalse])
  · rfl

end

end Bindery.Text
