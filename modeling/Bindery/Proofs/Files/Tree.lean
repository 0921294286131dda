import Bindery.Files.Tree
import Bindery.Proofs.OrderedMap

/-!
# Trees of files: what an operation changes

Putting an entry at a location and taking one away leaves all other locations as they were, except
for the directories on the way.
-/

namespace Bindery

/-- Neither location is on the way to the other. -/
def Location.Unrelated (l m : Location) : Prop :=
  ¬ l <+: m ∧ ¬ m <+: l

namespace Location

theorem unrelated_cons {name : String} {l m : Location} :
    Unrelated (name :: l) (name :: m) ↔ Unrelated l m := by
  simp [Unrelated, List.cons_prefix_cons]

theorem unrelated_concat {name name' : String} (h : name ≠ name') (base : Location) :
    Unrelated (base ++ [name]) (base ++ [name']) := by
  simp [Unrelated, List.prefix_append_right_inj, List.cons_prefix_cons, h, h.symm]

theorem Unrelated.append {l m : Location} (h : l.Unrelated m) (l' m' : Location) :
    (l ++ l').Unrelated (m ++ m') := by
  constructor
  · intro hprefix
    have hl : l <+: m ++ m' := (List.prefix_append l l').trans hprefix
    rcases List.prefix_or_prefix_of_prefix hl (List.prefix_append m m') with hlm | hml
    · exact h.1 hlm
    · exact h.2 hml
  · intro hprefix
    have hm : m <+: l ++ l' := (List.prefix_append m m').trans hprefix
    rcases List.prefix_or_prefix_of_prefix hm (List.prefix_append l l') with hml | hlm
    · exact h.2 hml
    · exact h.1 hlm

end Location

namespace Entry

open Location

/-! ## Directories -/

theorem change_cons (name k : String) (f : Entry → Entry) (e : Entry)
    (entries : List (String × Entry)) :
    change name f ((k, e) :: entries) =
      (k, if k = name then f e else e) :: change name f entries := by
  by_cases h : k = name <;> simp [change, h]

theorem lookup_change (name key : String) (f : Entry → Entry) (entries : List (String × Entry)) :
    (change name f entries).lookup key =
      if key = name then (entries.lookup key).map f else entries.lookup key := by
  induction entries with
  | nil => simp [change]
  | cons e entries ih =>
      obtain ⟨k, e⟩ := e
      rw [change_cons, lookup_cons_ite, lookup_cons_ite, ih]
      by_cases hkey : key = k
      · subst hkey
        by_cases hname : key = name <;> simp [hname]
      · simp [hkey]

theorem change_of_not_mem {name : String} {entries : List (String × Entry)}
    (h : name ∉ entries.map Prod.fst) (f : Entry → Entry) : change name f entries = entries := by
  induction entries with
  | nil => rfl
  | cons e entries ih =>
      rw [List.map_cons, List.mem_cons, not_or] at h
      rw [change_cons, if_neg (Ne.symm h.1), ih h.2]

theorem change_put_nil {name : String} {entries : List (String × Entry)}
    (hnodup : (entries.map Prod.fst).Nodup) (hmem : name ∈ entries.map Prod.fst) (new : Entry) :
    change name (put [] · new) entries = OrderedMap.put name new entries := by
  induction entries with
  | nil => cases hmem
  | cons e entries ih =>
      rw [List.map_cons, List.nodup_cons] at hnodup
      rw [change_cons, OrderedMap.put]
      by_cases hname : e.1 = name
      · subst hname
        rw [change_of_not_mem hnodup.1, if_pos rfl, if_pos rfl, put]
      · rw [if_neg hname, if_neg hname, ih hnodup.2 (by simpa [Ne.symm hname] using hmem)]

theorem lookup_concat {name : String} {entries : List (String × Entry)}
    (h : entries.lookup name = none) (key : String) (e : Entry) :
    (entries ++ [(name, e)]).lookup key =
      if key = name then some e else entries.lookup key := by
  rw [List.lookup_append, lookup_cons_ite]
  by_cases hkey : key = name <;> simp [hkey, h]

theorem lookup_filter (name key : String) (entries : List (String × Entry)) :
    (entries.filter (·.1 ≠ name)).lookup key =
      if key = name then none else entries.lookup key := by
  induction entries with
  | nil => simp
  | cons e entries ih =>
      obtain ⟨k, e⟩ := e
      by_cases hk : k = name
      · subst hk
        rw [List.filter_cons_of_neg (by simp), ih, lookup_cons_ite]
        by_cases hkey : key = k <;> simp [hkey]
      · rw [List.filter_cons_of_pos (by simpa using hk), lookup_cons_ite, lookup_cons_ite, ih]
        by_cases hkey : key = k
        · simp [hkey, hk]
        · simp [hkey]

/-! ## Locations -/

theorem get?_append (l m : Location) (e : Entry) : e.get? (l ++ m) = (e.get? l).bind (get? m) := by
  induction l generalizing e with
  | nil => rfl
  | cons name l ih =>
      cases e with
      | file content => rfl
      | directory entries =>
          rw [List.cons_append, get?, get?]
          cases entries.lookup name with
          | none => rfl
          | some e => exact ih e

theorem get?_concat (l : Location) (name : String) (e : Entry) :
    e.get? (l ++ [name]) = (e.get? l).bind (get? [name]) :=
  get?_append l [name] e

theorem get?_singleton (name : String) (entries : List (String × Entry)) :
    (directory entries).get? [name] = entries.lookup name := by
  rw [get?]
  cases entries.lookup name <;> rfl

/-- Only in a directory there is something. -/
theorem exists_directory_of_get?_append {l m : Location} {e e' : Entry} (hm : m ≠ [])
    (h : e.get? (l ++ m) = some e') : ∃ entries, e.get? l = some (.directory entries) := by
  rw [get?_append] at h
  obtain ⟨d, hd, hrest⟩ := Option.bind_eq_some_iff.1 h
  obtain ⟨name, m, rfl⟩ := List.exists_cons_of_ne_nil hm
  cases d with
  | file content => cases hrest
  | directory entries => exact ⟨entries, hd⟩

theorem exists_directory_of_get?_directory {l m : Location} {e : Entry}
    {entries : List (String × Entry)} (h : e.get? (l ++ m) = some (.directory entries)) :
    ∃ inside, e.get? l = some (.directory inside) := by
  cases m with
  | nil => exact ⟨entries, by simpa using h⟩
  | cons name m => exact exists_directory_of_get?_append (List.cons_ne_nil name m) h

/-! ## Putting -/

theorem get?_put_of_unrelated {l m : Location} (h : l.Unrelated m) (e new : Entry) :
    (e.put l new).get? m = e.get? m := by
  induction l generalizing e m with
  | nil => exact absurd List.nil_prefix h.1
  | cons name l ih =>
      cases m with
      | nil => exact absurd List.nil_prefix h.2
      | cons key m =>
          cases e with
          | file content => rfl
          | directory entries =>
              rw [put]
              split
              next hsome =>
                rw [get?, get?, lookup_change]
                by_cases hkey : key = name
                · subst hkey
                  obtain ⟨e, he⟩ := Option.isSome_iff_exists.1 hsome
                  rw [if_pos rfl, he]
                  exact ih (unrelated_cons.1 h) e
                · rw [if_neg hkey]
              next hnone =>
                rw [Option.not_isSome_iff_eq_none] at hnone
                split
                next hl =>
                  obtain rfl := List.isEmpty_iff.1 hl
                  have hkey : key ≠ name := by
                    rintro rfl
                    exact h.1 (List.prefix_append [key] m)
                  rw [get?, get?, lookup_concat hnone, if_neg hkey]
                next => rfl

/-- Inside something, an entry is put as if that were all. -/
theorem get?_put_append {l m : Location} {e d : Entry} (h : e.get? l = some d) (new : Entry) :
    (e.put (l ++ m) new).get? l = some (d.put m new) := by
  induction l generalizing e with
  | nil =>
      obtain rfl : e = d := by simpa [get?] using h
      rfl
  | cons name l ih =>
      cases e with
      | file content => cases h
      | directory entries =>
          rw [get?] at h
          cases hlookup : entries.lookup name with
          | none => simp [hlookup] at h
          | some e =>
              rw [hlookup] at h
              rw [List.cons_append, put, hlookup, Option.isSome_some, if_pos rfl, get?,
                lookup_change, if_pos rfl, hlookup]
              exact ih h

/-- What is put somewhere is there then, unless there is nothing. -/
theorem get?_put_self (l : Location) (e new : Entry) :
    (e.put l new).get? l = none ∨ (e.put l new).get? l = some new := by
  induction l generalizing e with
  | nil => exact .inr rfl
  | cons name l ih =>
      cases e with
      | file content => exact .inl rfl
      | directory entries =>
          rw [put]
          split
          next hsome =>
            obtain ⟨e, he⟩ := Option.isSome_iff_exists.1 hsome
            rw [get?, lookup_change, if_pos rfl, he]
            exact ih e
          next hnone =>
            rw [Option.not_isSome_iff_eq_none] at hnone
            split
            next hl =>
              obtain rfl := List.isEmpty_iff.1 hl
              rw [get?, lookup_concat hnone, if_pos rfl]
              exact .inr rfl
            next =>
              rw [get?, hnone]
              exact .inl rfl

theorem get?_put_singleton (name key : String) (new : Entry) (entries : List (String × Entry)) :
    ((directory entries).put [name] new).get? [key] =
      if key = name then some new else entries.lookup key := by
  rw [put]
  split
  next hsome =>
    obtain ⟨e, he⟩ := Option.isSome_iff_exists.1 hsome
    rw [get?_singleton, lookup_change]
    by_cases hkey : key = name <;> simp [hkey, he, put]
  next hnone =>
    rw [Option.not_isSome_iff_eq_none] at hnone
    rw [List.isEmpty_nil, if_pos rfl, get?_singleton, lookup_concat hnone]

theorem exists_put_singleton (name : String) (new : Entry) (entries : List (String × Entry)) :
    ∃ entries', (directory entries).put [name] new = directory entries' ∧
      ∀ key, entries'.lookup key = if key = name then some new else entries.lookup key := by
  have hget key := get?_put_singleton name key new entries
  cases hput : (directory entries).put [name] new with
  | file content =>
      have hnone := hget name
      rw [hput] at hnone
      simp [get?] at hnone
  | directory entries' =>
      refine ⟨entries', rfl, fun key => ?_⟩
      rw [← hget key, hput, get?_singleton]

/-- A file is put in a directory as a value is put in a map. -/
theorem put_singleton_of_nodup {entries : List (String × Entry)}
    (h : (entries.map Prod.fst).Nodup) (name : String) (new : Entry) :
    (directory entries).put [name] new = .directory (OrderedMap.put name new entries) := by
  rw [put]
  split
  next hsome => exact congrArg directory (change_put_nil h (isSome_lookup_iff.1 hsome) new)
  next hnone =>
    have hmem : name ∉ entries.map Prod.fst := fun hmem => hnone (isSome_lookup_iff.2 hmem)
    rw [List.isEmpty_nil, if_pos rfl, OrderedMap.put_of_not_mem new hmem]

/-! ## Removing -/

theorem get?_remove_self {l : Location} (h : l ≠ []) (e : Entry) : (e.remove l).get? l = none := by
  induction l generalizing e with
  | nil => exact absurd rfl h
  | cons name l ih =>
      cases e with
      | file content => rfl
      | directory entries =>
          rw [remove]
          split
          next hl =>
            rw [get?, lookup_filter, if_pos rfl]
          next hl =>
            rw [get?, lookup_change, if_pos rfl]
            cases entries.lookup name with
            | none => rfl
            | some e => exact ih (by simpa using hl) e

theorem get?_remove_of_unrelated {l m : Location} (h : l.Unrelated m) (e : Entry) :
    (e.remove l).get? m = e.get? m := by
  induction l generalizing e m with
  | nil => exact absurd List.nil_prefix h.1
  | cons name l ih =>
      cases m with
      | nil => exact absurd List.nil_prefix h.2
      | cons key m =>
          cases e with
          | file content => rfl
          | directory entries =>
              rw [remove]
              split
              next hl =>
                obtain rfl := List.isEmpty_iff.1 hl
                have hkey : key ≠ name := by
                  rintro rfl
                  exact h.1 (List.prefix_append [key] m)
                rw [get?, get?, lookup_filter, if_neg hkey]
              next hl =>
                rw [get?, get?, lookup_change]
                by_cases hkey : key = name
                · subst hkey
                  rw [if_pos rfl]
                  cases entries.lookup key with
                  | none => rfl
                  | some e => exact ih (unrelated_cons.1 h) e
                · rw [if_neg hkey]

end Entry

end Bindery
