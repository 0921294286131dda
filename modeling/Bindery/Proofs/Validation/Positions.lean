import Bindery.Proofs.Validation.Collisions
import Mathlib.Data.List.Forall2

/-!
# Collisions by position

`collisions_exact`: the reports stand in the order of the names, one for each position at which
another name stands than the first one with its rendering.
-/

namespace Bindery.Validation

/-! ## Positions -/

/-- A list that is mapped in part has its results in the order of the positions they are of. -/
theorem exists_positions_filterMap {α β : Type} (f : α → Option β) (xs : List α) :
    ∃ positions : List Nat, positions.Pairwise (· < ·) ∧
      (∀ j, j ∈ positions ↔ ∃ y x, xs[j]? = some x ∧ f x = some y) ∧
      List.Forall₂ (fun j y => ∃ x, xs[j]? = some x ∧ f x = some y) positions (xs.filterMap f) := by
  induction xs with
  | nil => exact ⟨[], .nil, by simp, .nil⟩
  | cons x xs ih =>
      obtain ⟨positions, hascending, hmem, hresults⟩ := ih
      have hlater : (positions.map (· + 1)).Pairwise (· < ·) :=
        List.pairwise_map.2 (hascending.imp Nat.succ_lt_succ)
      have hbehind : List.Forall₂ (fun j y => ∃ a, (x :: xs)[j]? = some a ∧ f a = some y)
          (positions.map (· + 1)) (xs.filterMap f) :=
        List.forall₂_map_left_iff.2 (by simpa using hresults)
      cases hx : f x with
      | none =>
          refine ⟨positions.map (· + 1), hlater, fun j => ?_, by rwa [List.filterMap_cons_none hx]⟩
          cases j with
          | zero => simp [hx]
          | succ j => simp [hmem]
      | some y =>
          refine ⟨0 :: positions.map (· + 1), ?_, fun j => ?_, ?_⟩
          · exact List.pairwise_cons.2 ⟨by simp, hlater⟩
          · cases j with
            | zero => simp [hx]
            | succ j => simp [hmem]
          · rw [List.filterMap_cons_some hx]
            exact .cons ⟨x, rfl, hx⟩ hbehind

/-! ## Names in their places -/

/-- The name stands at position `i`, and none before it has its rendering. -/
structure Leads (render : String → String) (names : List String) (i : Nat) (name : String) :
    Prop where
  stands : names[i]? = some name
  first : ∀ k < i, ∀ other, names[k]? = some other → render other ≠ render name

/-- `second` stands at position `j`, and the first name with its rendering is another one. -/
structure Clashes (render : String → String) (names : List String) (j : Nat)
    (first second : String) : Prop where
  stands : names[j]? = some second
  leads : ∃ i, Leads render names i first
  alike : render first = render second
  ne : first ≠ second

variable {render : String → String} {names : List String}

theorem find?_eq_some_iff_leads {rendered first : String} :
    names.find? (fun n => render n = rendered) = some first ↔
      render first = rendered ∧ ∃ i, Leads render names i first := by
  rw [List.find?_eq_some_iff_getElem, decide_eq_true_eq]
  refine and_congr_right ?_
  rintro rfl
  constructor
  · rintro ⟨i, hi, hfirst, hbefore⟩
    refine ⟨i, List.getElem?_eq_some_iff.2 ⟨hi, hfirst⟩, fun k hk other hother => ?_⟩
    obtain ⟨-, rfl⟩ := List.getElem?_eq_some_iff.1 hother
    simpa using hbefore k hk
  · rintro ⟨i, hstands, hbefore⟩
    obtain ⟨hi, hfirst⟩ := List.getElem?_eq_some_iff.1 hstands
    refine ⟨i, hi, hfirst, fun k hk => ?_⟩
    simpa using hbefore k hk _ (List.getElem?_eq_getElem (hk.trans hi))

theorem exists_leads {name : String} (h : name ∈ names) :
    ∃ i first, Leads render names i first ∧ render first = render name := by
  obtain ⟨first, hfirst⟩ := exists_first render h
  obtain ⟨halike, i, hleads⟩ := find?_eq_some_iff_leads.1 hfirst
  exact ⟨i, first, hleads, halike⟩

theorem collision?_eq_some_iff {scope second : String} {v : Violation} :
    collision? scope render names second = some v ↔
      ∃ first, (render first = render second ∧ ∃ i, Leads render names i first) ∧ first ≠ second ∧
        v = .nameCollision scope first second (render second) := by
  rw [collision?, Option.bind_eq_some_iff]
  refine exists_congr fun first => ?_
  rw [find?_eq_some_iff_leads]
  refine and_congr_right fun _ => ?_
  by_cases heq : first = second
  · simp [heq]
  · simp [heq, eq_comm]

/-- What is reported of the name at position `j`: the first name with its rendering, the name itself
and that rendering. -/
def Reports (scope : String) (render : String → String) (names : List String) (j : Nat)
    (v : Violation) : Prop :=
  ∃ first second, Clashes render names j first second ∧
    v = .nameCollision scope first second (render second)

theorem reports_iff (scope : String) {j : Nat} {v : Violation} : Reports scope render names j v ↔
    ∃ name, names[j]? = some name ∧ collision? scope render names name = some v := by
  constructor
  · rintro ⟨first, second, h, hv⟩
    exact ⟨second, h.stands, collision?_eq_some_iff.2 ⟨first, ⟨h.alike, h.leads⟩, h.ne, hv⟩⟩
  · rintro ⟨second, hstands, hv⟩
    obtain ⟨first, ⟨halike, hleads⟩, hne, hv⟩ := collision?_eq_some_iff.1 hv
    exact ⟨first, second, ⟨hstands, hleads, halike, hne⟩, hv⟩

theorem exists_reports_iff (scope : String) {j : Nat} : (∃ v, Reports scope render names j v) ↔
    ∃ first second, Clashes render names j first second := by
  constructor
  · rintro ⟨v, first, second, h, -⟩
    exact ⟨first, second, h⟩
  · rintro ⟨first, second, h⟩
    exact ⟨_, first, second, h, rfl⟩

theorem mem_collisions (scope : String) {first second : String} {i : Nat}
    (h : Leads render names i first) (hmem : second ∈ names) (halike : render first = render second)
    (hne : first ≠ second) :
    .nameCollision scope first second (render second) ∈ collisions scope render names := by
  rw [collisions_eq_filterMap, List.mem_filterMap]
  exact ⟨second, hmem, collision?_eq_some_iff.2 ⟨first, ⟨halike, i, h⟩, hne, rfl⟩⟩

/-- There is one report for each position at which another name stands than the first one with its
rendering, in the order of the positions, and there are no others. So of different names that become
one at least one is reported, and each of them is but the first. -/
theorem collisions_exact (scope : String) (render : String → String) (names : List String) :
    (∃ positions : List Nat, positions.Pairwise (· < ·) ∧
      (∀ j, j ∈ positions ↔ ∃ first second, Clashes render names j first second) ∧
      List.Forall₂ (Reports scope render names) positions (collisions scope render names)) ∧
    (∀ a ∈ names, ∀ b ∈ names, a ≠ b → render a = render b → ∃ first second,
      .nameCollision scope first second (render a) ∈ collisions scope render names) ∧
    ∀ name ∈ names, ∃ i first, Leads render names i first ∧ render first = render name ∧
      (first ≠ name → .nameCollision scope first name (render name) ∈
        collisions scope render names) := by
  refine ⟨?_, fun a ha b hb hne halike => ?_, fun name hname => ?_⟩
  · obtain ⟨positions, hascending, hmem, hresults⟩ :=
      exists_positions_filterMap (collision? scope render names) names
    simp only [← reports_iff scope] at hmem hresults
    rw [← collisions_eq_filterMap] at hresults
    exact ⟨positions, hascending, fun j => (hmem j).trans (exists_reports_iff scope), hresults⟩
  · obtain ⟨i, first, hleads, hfirst⟩ := exists_leads ha
    by_cases heq : first = a
    · subst heq
      have hmem := mem_collisions scope hleads hb halike hne
      exact ⟨first, b, halike ▸ hmem⟩
    · exact ⟨first, a, mem_collisions scope hleads ha hfirst heq⟩
  · obtain ⟨i, first, hleads, hfirst⟩ := exists_leads hname
    exact ⟨i, first, hleads, hfirst, mem_collisions scope hleads hname hfirst⟩

/-- Three names that become one, two of them more than once. -/
def doorNames : List String := ["is_open", "width", "isOpen", "is_open", "is-open", "isOpen"]

theorem collisions_exact_doorNames :
    collisions "record Door" Naming.camelCase doorNames = [
      .nameCollision "record Door" "is_open" "isOpen" "isOpen",
      .nameCollision "record Door" "is_open" "is-open" "isOpen",
      .nameCollision "record Door" "is_open" "isOpen" "isOpen"] ∧
    "isOpen" ∈ doorNames ∧ "is-open" ∈ doorNames ∧ "isOpen" ≠ "is-open" ∧
    Naming.camelCase "isOpen" = Naming.camelCase "is-open" ∧
    ∃ first second, .nameCollision "record Door" first second (Naming.camelCase "isOpen") ∈
      collisions "record Door" Naming.camelCase doorNames := by
  have hopen : "isOpen" ∈ doorNames := by decide
  have hhyphen : "is-open" ∈ doorNames := by decide
  have hne : "isOpen" ≠ "is-open" := by decide
  have halike : Naming.camelCase "isOpen" = Naming.camelCase "is-open" := by decide +kernel
  obtain ⟨-, hshared, -⟩ := collisions_exact "record Door" Naming.camelCase doorNames
  exact ⟨by decide +kernel, hopen, hhyphen, hne, halike,
    hshared "isOpen" hopen "is-open" hhyphen hne halike⟩

end Bindery.Validation
