import Bindery.Number.Double

/-!
What a document says, whatever its format: scalars, lists and tables as they stand in the text,
repeated names and broken places included.
-/

namespace Bindery

inductive Node where
  | null
  | bool (value : Bool)
  | integer (value : Int)
  | real (value : Double)
  /-- An infinity or not a number, as messages call it. -/
  | nonFinite (name : String)
  | string (value : String)
  | list (items : List Node)
  /-- An entry without a name is one whose name cannot be read. -/
  | table (entries : List (Option String × Node))
  /-- Keeps to the grammar but has no value, such as a number out of range. -/
  | unreadable
  /-- The text stops following the grammar here. -/
  | malformed
  deriving Repr, Inhabited

namespace Node

mutual
/-- Whether two nodes say the same, down to the last scalar. -/
def same : Node → Node → Bool
  | .null, .null | .unreadable, .unreadable | .malformed, .malformed => true
  | .bool value, .bool value' => value = value'
  | .integer value, .integer value' => value = value'
  | .real value, .real value' => value = value'
  | .nonFinite name, .nonFinite name' => name = name'
  | .string value, .string value' => value = value'
  | .list items, .list items' => sameItems items items'
  | .table entries, .table entries' => sameEntries entries entries'
  | _, _ => false

def sameItems : List Node → List Node → Bool
  | [], [] => true
  | x :: xs, y :: ys => x.same y && sameItems xs ys
  | _, _ => false

def sameEntries : List (Option String × Node) → List (Option String × Node) → Bool
  | [], [] => true
  | (name, x) :: xs, (name', y) :: ys => name = name' && x.same y && sameEntries xs ys
  | _, _ => false
end

mutual
theorem same_iff : (x y : Node) → (x.same y = true ↔ x = y)
  | .list items, y => by cases y <;> simp [same, sameItems_iff items]
  | .table entries, y => by cases y <;> simp [same, sameEntries_iff entries]
  | .null, y | .bool _, y | .integer _, y | .real _, y | .nonFinite _, y | .string _, y
  | .unreadable, y | .malformed, y => by cases y <;> simp [same]

theorem sameItems_iff : (xs ys : List Node) → (sameItems xs ys = true ↔ xs = ys)
  | [], ys => by cases ys <;> simp [sameItems]
  | x :: xs, ys => by cases ys <;> simp [sameItems, same_iff x, sameItems_iff xs]

theorem sameEntries_iff : (xs ys : List (Option String × Node)) →
    (sameEntries xs ys = true ↔ xs = ys)
  | [], ys => by cases ys <;> simp [sameEntries]
  | (_, x) :: xs, ys => by
      cases ys <;> simp [sameEntries, same_iff x, sameEntries_iff xs, Prod.ext_iff]
end

instance : DecidableEq Node := fun x y => decidable_of_iff _ (same_iff x y)

mutual
/-- How many containers stand inside each other. -/
def height : Node → Nat
  | .list items => itemsHeight items + 1
  | .table entries => entriesHeight entries + 1
  | _ => 0

def itemsHeight : List Node → Nat
  | [] => 0
  | item :: items => max item.height (itemsHeight items)

def entriesHeight : List (Option String × Node) → Nat
  | [] => 0
  | (_, value) :: entries => max value.height (entriesHeight entries)
end

mutual
/-- The text follows the grammar throughout. -/
def wellFormed : Node → Bool
  | .list items => itemsWellFormed items
  | .table entries => entriesWellFormed entries
  | .malformed => false
  | _ => true

def itemsWellFormed : List Node → Bool
  | [] => true
  | item :: items => item.wellFormed && itemsWellFormed items

def entriesWellFormed : List (Option String × Node) → Bool
  | [] => true
  | (_, value) :: entries => value.wellFormed && entriesWellFormed entries
end

mutual
/-- Every place has a value and every entry a name. -/
def readable : Node → Bool
  | .list items => itemsReadable items
  | .table entries => entriesReadable entries
  | .malformed | .unreadable => false
  | _ => true

def itemsReadable : List Node → Bool
  | [] => true
  | item :: items => item.readable && itemsReadable items

def entriesReadable : List (Option String × Node) → Bool
  | [] => true
  | (name, value) :: entries => name.isSome && value.readable && entriesReadable entries
end

/-- The value of the last entry of that name. -/
def get? (node : Node) (name : String) : Option Node :=
  match node with
  | .table entries => (entries.reverse.find? (·.1 == some name)).map Prod.snd
  | _ => none

end Node

end Bindery
