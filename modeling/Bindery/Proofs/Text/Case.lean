import Bindery.Text.Case

/-!
# Upper and lower case

The other case of a character is a blank, a slash or a sign between them, or a control character,
only if the character is.
-/

namespace Bindery.Text

theorem ascii_cases {p : Char → Prop} (h : ∀ n : Fin 128, p (Char.ofNat n)) {c : Char}
    (hc : c.toNat < 128) : p c := by
  have hn := h ⟨c.toNat, hc⟩
  rwa [Char.ofNat_toNat] at hn

theorem eq_of_ofNat_eq {n : Nat} {d : Char} (hd : 0 < d.toNat) (h : Char.ofNat n = d) :
    n = d.toNat := by
  by_cases hvalid : n.isValidChar
  · rw [Char.ofNat, dif_pos hvalid] at h
    exact congrArg Char.toNat h
  · rw [Char.ofNat, dif_neg hvalid] at h
    subst h
    cases hd

section

variable {shifts : List (Nat × Nat × Nat × Int)} {long : List (Nat × List Nat)} {c d : Char}

/-- A character becomes some characters of an entry of its own, what its run leads to, or itself. -/
theorem mem_mapped (h : d ∈ mapped shifts long c) :
    (∃ entry ∈ long, ∃ point ∈ entry.2, d = Char.ofNat point) ∨
      (∃ run ∈ shifts, onRun c.toNat (run.1, run.2.1, run.2.2.1) = true ∧
        d = Char.ofNat (c.toNat + run.2.2.2).toNat) ∨
      d = c := by
  rw [mapped] at h
  split at h
  next key points hfind =>
    obtain ⟨point, hpoint, rfl⟩ := List.mem_map.1 h
    exact .inl ⟨_, List.mem_of_find?_eq_some hfind, point, hpoint, rfl⟩
  next =>
    split at h
    next first last step shift hfind =>
      have hon := List.find?_some hfind
      exact .inr (.inl ⟨_, List.mem_of_find?_eq_some hfind, hon, List.mem_singleton.1 h⟩)
    next => exact .inr (.inr (List.mem_singleton.1 h))

/-- A table makes no such character if it leads behind the slash in every run. -/
theorem eq_of_mem_mapped (hpos : 0 < d.toNat) (hlow : d.toNat ≤ '/'.toNat)
    (hshifts : ∀ run ∈ shifts, '/'.toNat < run.1 + run.2.2.2)
    (hlong : ∀ entry ∈ long, ∀ point ∈ entry.2, '/'.toNat < point) (h : d ∈ mapped shifts long c) :
    c = d := by
  rcases mem_mapped h with ⟨entry, hentry, point, hpoint, hd⟩ | ⟨run, hrun, hon, hd⟩ | hd
  · have hbehind := hlong entry hentry point hpoint
    have heq := eq_of_ofNat_eq hpos hd.symm
    omega
  · have hbehind := hshifts run hrun
    have hfirst : run.1 ≤ c.toNat := by
      simp only [onRun, Bool.and_eq_true, decide_eq_true_eq] at hon
      exact hon.1.1
    have heq := eq_of_ofNat_eq hpos hd.symm
    omega
  · exact hd.symm

end

section

variable {c d : Char} (hpos : 0 < d.toNat) (hlow : d.toNat ≤ '/'.toNat)

include hpos hlow

theorem eq_of_mem_toLower (h : d ∈ toLower c) : c = d := by
  rw [toLower] at h
  split at h
  next hascii =>
    rw [List.mem_singleton] at h
    subst h
    exact ascii_cases (p := fun c => c.toLower.toNat ≤ '/'.toNat → c = c.toLower)
      (by decide +kernel) hascii hlow
  next => exact eq_of_mem_mapped hpos hlow (by decide +kernel) (by decide +kernel) h

theorem eq_of_mem_toUpper (h : d ∈ toUpper c) : c = d := by
  rw [toUpper] at h
  split at h
  next hascii =>
    rw [List.mem_singleton] at h
    subst h
    exact ascii_cases (p := fun c => c.toUpper.toNat ≤ '/'.toNat → c = c.toUpper)
      (by decide +kernel) hascii hlow
  next => exact eq_of_mem_mapped hpos hlow (by decide +kernel) (by decide +kernel) h

end

end Bindery.Text
