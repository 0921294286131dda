/-!
Maps from names to values that keep the order in which the names first came.
-/

namespace Bindery

/-- An association list in which no name occurs twice. -/
structure OrderedMap (α : Type) where
  entries : List (String × α)
  nodup : (entries.map Prod.fst).Nodup := by decide
  deriving DecidableEq

namespace OrderedMap

variable {α : Type}

instance [Repr α] : Repr (OrderedMap α) where
  reprPrec m n := reprPrec m.entries n

def empty : OrderedMap α := ⟨[], List.nodup_nil⟩

instance : EmptyCollection (OrderedMap α) := ⟨empty⟩

instance : Inhabited (OrderedMap α) := ⟨empty⟩

def keys (m : OrderedMap α) : List String := m.entries.map Prod.fst

def values (m : OrderedMap α) : List α := m.entries.map Prod.snd

def size (m : OrderedMap α) : Nat := m.entries.length

def isEmpty (m : OrderedMap α) : Bool := m.entries.isEmpty

def get? (m : OrderedMap α) (name : String) : Option α :=
  m.entries.lookup name

def contains (m : OrderedMap α) (name : String) : Bool :=
  m.keys.contains name

/-- The entries after `name` got a value: a known name keeps its place, a new one comes last. -/
def put (name : String) (value : α) : List (String × α) → List (String × α)
  | [] => [(name, value)]
  | (k, v) :: rest => if k = name then (k, value) :: rest else (k, v) :: put name value rest

theorem map_fst_put (name : String) (value : α) (es : List (String × α)) :
    (put name value es).map Prod.fst =
      if name ∈ es.map Prod.fst then es.map Prod.fst else es.map Prod.fst ++ [name] := by
  induction es with
  | nil => simp [put]
  | cons e rest ih =>
    obtain ⟨k, v⟩ := e
    by_cases h : k = name
    · simp [put, h]
    · have h' : ¬ name = k := fun e => h e.symm
      by_cases hm : name ∈ rest.map Prod.fst
      · simp only [put, h, if_false, List.map_cons, ih, hm, if_true, List.mem_cons, or_true]
      · simp only [put, h, if_false, List.map_cons, ih, hm, List.mem_cons, h',
          or_self, List.cons_append]

theorem nodup_put (name : String) (value : α) (es : List (String × α))
    (h : (es.map Prod.fst).Nodup) : ((put name value es).map Prod.fst).Nodup := by
  rw [map_fst_put]
  split
  · exact h
  · rename_i hn
    exact List.nodup_append.2 ⟨h, by simp, by
      intro a ha b hb e
      simp only [List.mem_singleton] at hb
      exact hn (hb ▸ e ▸ ha)⟩

def insert (m : OrderedMap α) (name : String) (value : α) : OrderedMap α :=
  ⟨put name value m.entries, nodup_put name value m.entries m.nodup⟩

/-- Inserts pair after pair, so a repeated name keeps its first place and its last value. -/
def ofList (pairs : List (String × α)) : OrderedMap α :=
  pairs.foldl (fun m (name, value) => m.insert name value) ∅

/-- Replaces the value of `name` by what `f` makes of it, or of `start` if there is none. -/
def update (m : OrderedMap α) (name : String) (start : α) (f : α → α) : OrderedMap α :=
  m.insert name (f ((m.get? name).getD start))

end OrderedMap

end Bindery
