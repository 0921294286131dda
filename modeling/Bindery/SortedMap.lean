/-!
Maps from names to values, kept in ascending order of the names.
-/

namespace Bindery

/-- An association list with strictly ascending names, so equal maps are equal lists. -/
structure SortedMap (α : Type) where
  entries : List (String × α)
  sorted : entries.Pairwise (·.1 < ·.1) := by decide
  deriving DecidableEq

namespace SortedMap

variable {α : Type}

instance [Repr α] : Repr (SortedMap α) where
  reprPrec m n := reprPrec m.entries n

def empty : SortedMap α := ⟨[], List.Pairwise.nil⟩

instance : EmptyCollection (SortedMap α) := ⟨empty⟩

instance : Inhabited (SortedMap α) := ⟨empty⟩

def get? (m : SortedMap α) (name : String) : Option α :=
  m.entries.lookup name

/-- The entries after `name` got a value, at the place that its order gives it. -/
def put (name : String) (value : α) : List (String × α) → List (String × α)
  | [] => [(name, value)]
  | (k, v) :: rest =>
    if name < k then (name, value) :: (k, v) :: rest
    else if k < name then (k, v) :: put name value rest
    else (name, value) :: rest

theorem mem_put {name : String} {value : α} {es : List (String × α)} {e : String × α}
    (h : e ∈ put name value es) : e = (name, value) ∨ e ∈ es := by
  induction es with
  | nil => simpa [put] using h
  | cons x rest ih =>
    obtain ⟨k, v⟩ := x
    simp only [put] at h
    split at h
    · simpa using h
    · split at h
      · rcases List.mem_cons.1 h with h | h
        · exact .inr (by simp [h])
        · exact (ih h).imp id (List.mem_cons_of_mem _)
      · rcases List.mem_cons.1 h with h | h
        · exact .inl h
        · exact .inr (List.mem_cons_of_mem _ h)

theorem sorted_put {name : String} {value : α} {es : List (String × α)}
    (h : es.Pairwise (·.1 < ·.1)) : (put name value es).Pairwise (·.1 < ·.1) := by
  induction es with
  | nil => exact List.pairwise_singleton _ _
  | cons x rest ih =>
    obtain ⟨k, v⟩ := x
    obtain ⟨hk, hrest⟩ := List.pairwise_cons.1 h
    simp only [put]
    split
    · rename_i hlt
      refine List.pairwise_cons.2 ⟨fun e he => ?_, h⟩
      rcases List.mem_cons.1 he with rfl | he
      · exact hlt
      · exact String.lt_trans hlt (hk e he)
    · rename_i hge
      split
      · rename_i hlt
        refine List.pairwise_cons.2 ⟨fun e he => ?_, ih hrest⟩
        rcases mem_put he with rfl | he
        · exact hlt
        · exact hk e he
      · rename_i hle
        have : name = k := String.le_antisymm (String.not_lt.1 hle) (String.not_lt.1 hge)
        subst this
        exact List.pairwise_cons.2 ⟨hk, hrest⟩

def insert (m : SortedMap α) (name : String) (value : α) : SortedMap α :=
  ⟨put name value m.entries, sorted_put m.sorted⟩

def ofList (pairs : List (String × α)) : SortedMap α :=
  pairs.foldl (fun m (name, value) => m.insert name value) ∅

/-- All entries of both; where both have a name, the second map's value counts. -/
def union (m other : SortedMap α) : SortedMap α :=
  other.entries.foldl (fun acc (name, value) => acc.insert name value) m

end SortedMap

end Bindery
