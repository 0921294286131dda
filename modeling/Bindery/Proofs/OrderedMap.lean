import Bindery.OrderedMap
import Mathlib.Data.List.Basic

/-!
# Maps in order: values, insertion and look-up
-/

namespace Bindery

theorem lookup_cons_ite {α : Type} (name key : String) (value : α) (es : List (String × α)) :
    ((name, value) :: es).lookup key = if key = name then some value else es.lookup key := by
  rw [List.lookup_cons]
  by_cases h : key = name
  · simp [h]
  · have hne : (key == name) = false := by simpa using h
    rw [hne, if_neg h]

theorem isSome_lookup_iff {α : Type} {name : String} {es : List (String × α)} :
    (es.lookup name).isSome = true ↔ name ∈ es.map Prod.fst := by
  simp [List.lookup_isSome_iff]

theorem mem_of_lookup_eq_some {α : Type} {name : String} {value : α} {es : List (String × α)}
    (h : es.lookup name = some value) : (name, value) ∈ es := by
  obtain ⟨before, behind, rfl, -⟩ := List.lookup_eq_some_iff.1 h
  exact List.mem_append_right before (by simp)

namespace OrderedMap

variable {α : Type}

theorem forall_mem_values {m : OrderedMap α} {p : α → Prop} :
    (∀ value ∈ m.values, p value) ↔ ∀ entry ∈ m.entries, p entry.2 :=
  List.forall_mem_map

theorem ext {m n : OrderedMap α} (h : m.entries = n.entries) : m = n := by
  obtain ⟨es, _⟩ := m
  obtain ⟨fs, _⟩ := n
  obtain rfl : es = fs := h
  rfl

theorem put_of_not_mem {name : String} (value : α) {es : List (String × α)}
    (h : name ∉ es.map Prod.fst) : put name value es = es ++ [(name, value)] := by
  induction es with
  | nil => rfl
  | cons e rest ih =>
      rw [List.map_cons, List.mem_cons, not_or] at h
      rw [put, if_neg (Ne.symm h.1), ih h.2, List.cons_append]

theorem entries_insert_of_not_mem {m : OrderedMap α} {name : String} {value : α}
    (h : name ∉ m.keys) : (m.insert name value).entries = m.entries ++ [(name, value)] :=
  put_of_not_mem value h

theorem keys_insert_of_not_mem {m : OrderedMap α} {name : String} {value : α}
    (h : name ∉ m.keys) : (m.insert name value).keys = m.keys ++ [name] := by
  rw [keys, entries_insert_of_not_mem h, List.map_append]
  rfl

theorem map_put {β : Type} (f : α → β) (name : String) (value : α) (es : List (String × α)) :
    (put name value es).map (fun e => (e.1, f e.2)) =
      put name (f value) (es.map fun e => (e.1, f e.2)) := by
  induction es with
  | nil => rfl
  | cons e rest ih =>
      rw [put, List.map_cons, put]
      split
      next => rfl
      next => rw [List.map_cons, ih]

theorem lookup_put (name key : String) (value : α) (es : List (String × α)) :
    (put name value es).lookup key = if key = name then some value else es.lookup key := by
  induction es with
  | nil => rw [put, lookup_cons_ite]
  | cons e rest ih =>
      obtain ⟨k, v⟩ := e
      rw [put, lookup_cons_ite]
      split
      next hk =>
        subst hk
        rw [lookup_cons_ite]
        split <;> rfl
      next hk =>
        rw [lookup_cons_ite, ih]
        by_cases h : key = k
        · simp [h, hk]
        · simp [h]

theorem get?_insert (m : OrderedMap α) (name key : String) (value : α) :
    (m.insert name value).get? key = if key = name then some value else m.get? key :=
  lookup_put name key value m.entries

theorem exists_get?_of_mem_keys {m : OrderedMap α} {name : String} (h : name ∈ m.keys) :
    ∃ value, m.get? name = some value :=
  Option.isSome_iff_exists.1 (isSome_lookup_iff.2 h)

theorem lookup_eq_some_iff {es : List (String × α)} (h : (es.map Prod.fst).Nodup) {name : String}
    {value : α} : es.lookup name = some value ↔ (name, value) ∈ es := by
  induction es with
  | nil => simp
  | cons e rest ih =>
      obtain ⟨key, first⟩ := e
      obtain ⟨hkey, hrest⟩ := List.nodup_cons.1 h
      rw [lookup_cons_ite, List.mem_cons]
      by_cases hname : name = key
      · subst hname
        have hnot : (name, value) ∉ rest := fun hmem =>
          hkey (List.mem_map.2 ⟨_, hmem, rfl⟩)
        simp [hnot, eq_comm]
      · rw [if_neg hname, ih hrest]
        simp [hname]

theorem get?_eq_some_iff {m : OrderedMap α} {name : String} {value : α} :
    m.get? name = some value ↔ (name, value) ∈ m.entries :=
  lookup_eq_some_iff m.nodup

end OrderedMap

end Bindery
