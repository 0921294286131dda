import Bindery.Proofs.OrderedMap
import Bindery.SortedMap
import Mathlib.Algebra.GroupWithZero.Nat
import Mathlib.Data.List.Nodup

/-!
# Sorted maps: look-up, unions and counts
-/

namespace Bindery.SortedMap

theorem lookup_eq_none_of_lt {α : Type} {name : String} {es : List (String × α)}
    (h : ∀ e ∈ es, name < e.1) : es.lookup name = none := by
  rw [List.lookup_eq_none_iff]
  intro e he
  have hne : name ≠ e.1 := fun heq => String.lt_irrefl name (heq ▸ h e he)
  simpa using hne

theorem lookup_put {α : Type} (name key : String) (value : α) {es : List (String × α)}
    (h : es.Pairwise (·.1 < ·.1)) :
    (put name value es).lookup key = if key = name then some value else es.lookup key := by
  induction es with
  | nil => rw [put, lookup_cons_ite]
  | cons e rest ih =>
      obtain ⟨k, v⟩ := e
      obtain ⟨-, hrest⟩ := List.pairwise_cons.1 h
      rw [put]
      by_cases hlt : name < k
      · rw [if_pos hlt, lookup_cons_ite]
      · rw [if_neg hlt]
        by_cases hgt : k < name
        · rw [if_pos hgt, lookup_cons_ite, ih hrest, lookup_cons_ite]
          by_cases hk : key = k
          · subst hk
            have hne : key ≠ name := by
              rintro rfl
              exact String.lt_irrefl _ hgt
            rw [if_pos rfl, if_neg hne, if_pos rfl]
          · rw [if_neg hk, if_neg hk]
        · obtain rfl : name = k := String.le_antisymm (String.not_lt.1 hgt) (String.not_lt.1 hlt)
          rw [if_neg hgt, lookup_cons_ite, lookup_cons_ite]
          split <;> rfl

variable {α : Type}

theorem get?_insert (m : SortedMap α) (name key : String) (value : α) :
    (m.insert name value).get? key = if key = name then some value else m.get? key :=
  lookup_put name key value m.sorted

theorem nodup_keys (m : SortedMap α) : (m.entries.map Prod.fst).Nodup := by
  refine List.pairwise_map.2 (m.sorted.imp fun {a b} (hlt : a.1 < b.1) heq => ?_)
  rw [heq] at hlt
  exact String.lt_irrefl _ hlt

theorem get?_eq_some_iff {m : SortedMap α} {name : String} {value : α} :
    m.get? name = some value ↔ (name, value) ∈ m.entries :=
  OrderedMap.lookup_eq_some_iff m.nodup_keys

/-- The order leaves no choice: maps with the same values are the same list. -/
theorem ext_get? {m n : SortedMap α} (h : ∀ name, m.get? name = n.get? name) : m = n := by
  have hmem (e : String × α) : e ∈ m.entries ↔ e ∈ n.entries := by
    obtain ⟨name, value⟩ := e
    rw [← get?_eq_some_iff, h, get?_eq_some_iff]
  have hperm : m.entries.Perm n.entries :=
    (List.perm_ext_iff_of_nodup m.nodup_keys.of_map n.nodup_keys.of_map).2 hmem
  have hentries : m.entries = n.entries := by
    refine hperm.eq_of_pairwise (fun a b _ _ hab hba => ?_) m.sorted n.sorted
    exact absurd (String.lt_trans hab hba) (String.lt_irrefl a.1)
  cases m
  cases n
  simpa using hentries

theorem get?_insertAll {pairs : List (String × α)} (h : (pairs.map Prod.fst).Nodup)
    (m : SortedMap α) (key : String) :
    (pairs.foldl (fun acc (name, value) => acc.insert name value) m).get? key =
      (pairs.lookup key).or (m.get? key) := by
  induction pairs generalizing m with
  | nil => rfl
  | cons pair pairs ih =>
      obtain ⟨name, value⟩ := pair
      obtain ⟨hname, hpairs⟩ := List.nodup_cons.1 h
      rw [List.foldl_cons, ih hpairs, get?_insert, lookup_cons_ite]
      by_cases hkey : key = name
      · have hnone : pairs.lookup key = none := by
          rw [← Option.not_isSome_iff_eq_none, isSome_lookup_iff, hkey]
          exact hname
        simp [hkey, hkey ▸ hnone]
      · simp [hkey]

theorem get?_union (m other : SortedMap α) (key : String) :
    (m.union other).get? key = (other.get? key).or (m.get? key) :=
  get?_insertAll other.nodup_keys m key

/-! ## Unions -/

theorem union_assoc (a b c : SortedMap α) : (a.union b).union c = a.union (b.union c) :=
  ext_get? fun name => by simp only [get?_union, Option.or_assoc]

theorem union_empty (m : SortedMap α) : m.union ∅ = m := rfl

theorem empty_union (m : SortedMap α) : (∅ : SortedMap α).union m = m :=
  ext_get? fun name => (get?_union ∅ m name).trans Option.or_none

theorem union_self (m : SortedMap α) : m.union m = m :=
  ext_get? fun name => by rw [get?_union, Option.or_self]

theorem get?_ofList_entries (m : OrderedMap α) (key : String) :
    (ofList m.entries).get? key = m.get? key :=
  (get?_insertAll m.nodup ∅ key).trans (Option.or_none)

/-- A value that is put takes the place of the one that the name had. -/
theorem sum_put {name : String} {value : Nat} {es : List (String × Nat)}
    (h : es.Pairwise (·.1 < ·.1)) :
    ((put name value es).map Prod.snd).sum + (es.lookup name).getD 0 =
      (es.map Prod.snd).sum + value := by
  induction es with
  | nil => simp [put]
  | cons e rest ih =>
      obtain ⟨k, v⟩ := e
      obtain ⟨hk, hrest⟩ := List.pairwise_cons.1 h
      rw [put]
      by_cases hlt : name < k
      · have hnone : ((k, v) :: rest).lookup name = none := by
          refine lookup_eq_none_of_lt (List.forall_mem_cons.2 ⟨hlt, fun e he => ?_⟩)
          exact String.lt_trans hlt (hk e he)
        rw [if_pos hlt, hnone]
        simp only [List.map_cons, List.sum_cons, Option.getD_none]
        omega
      · rw [if_neg hlt]
        by_cases hgt : k < name
        · have hne : (name == k) = false := by
            rw [beq_eq_false_iff_ne]
            exact fun heq => String.lt_irrefl k (heq ▸ hgt)
          have hih := ih hrest
          rw [if_pos hgt, List.lookup_cons, hne]
          simp only [List.map_cons, List.sum_cons] at hih ⊢
          omega
        · obtain rfl : name = k := String.le_antisymm (String.not_lt.1 hgt) (String.not_lt.1 hlt)
          rw [if_neg hgt, List.lookup_cons, beq_self_eq_true]
          simp only [List.map_cons, List.sum_cons, Option.getD_some]
          omega

/-! ## Counting names -/

/-- One more for a name. -/
def count (m : SortedMap Nat) (name : String) : SortedMap Nat :=
  m.insert name ((m.get? name).getD 0 + 1)

theorem sum_count (m : SortedMap Nat) (name : String) :
    ((m.count name).entries.map Prod.snd).sum = (m.entries.map Prod.snd).sum + 1 := by
  have hput : ((m.count name).entries.map Prod.snd).sum + (m.get? name).getD 0 =
      (m.entries.map Prod.snd).sum + ((m.get? name).getD 0 + 1) := sum_put m.sorted
  omega

theorem sum_foldl_count (names : List String) (m : SortedMap Nat) :
    ((names.foldl count m).entries.map Prod.snd).sum =
      (m.entries.map Prod.snd).sum + names.length := by
  induction names generalizing m with
  | nil => rfl
  | cons name names ih =>
      rw [List.foldl_cons, ih, sum_count, List.length_cons]
      omega

theorem get?_foldl_count (names : List String) (m : SortedMap Nat) (key : String) :
    (names.foldl count m).get? key =
      if key ∈ names then some ((m.get? key).getD 0 + names.count key) else m.get? key := by
  induction names generalizing m with
  | nil => simp
  | cons name names ih =>
      rw [List.foldl_cons, ih, count, get?_insert]
      by_cases hkey : key = name
      · subst hkey
        by_cases hmem : key ∈ names
        · simp only [hmem, if_true, List.mem_cons_self, Option.getD_some, List.count_cons_self]
          congr 1
          omega
        · simp [hmem, List.count_eq_zero.2 hmem]
      · simp [hkey, List.count_cons_of_ne (Ne.symm hkey)]

end Bindery.SortedMap
