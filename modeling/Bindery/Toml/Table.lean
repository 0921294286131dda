import Bindery.Document.Node

/-!
Tables under construction. A table may be written in parts, but no part may be written twice and no
value turned into a table.
-/

namespace Bindery.Toml

inductive Item where
  | value (node : Node)
  /-- A table is implicit while only the way to another one named it, and dotted if that way was a
  key and not a header. -/
  | table (isImplicit dotted : Bool) (entries : List (String × Item))
  /-- The tables under a header that may come again. -/
  | tables (elements : List (List (String × Item)))
  deriving Repr, Inhabited

abbrev Entries := List (String × Item)

namespace Item

mutual
/-- What a document says with an item. -/
def node : Item → Node
  | .value n => n
  | .table _ _ entries => .table (entryNodes entries)
  | .tables elements => .list (elementNodes elements)

def entryNodes : List (String × Item) → List (Option String × Node)
  | [] => []
  | (name, item) :: entries => (some name, item.node) :: entryNodes entries

def elementNodes : List (List (String × Item)) → List Node
  | [] => []
  | element :: elements => .table (entryNodes element) :: elementNodes elements
end

end Item

namespace Entries

def replace (entries : Entries) (name : String) (item : Item) : Entries :=
  entries.map fun (k, old) => if k = name then (k, item) else (k, old)

def erase (entries : Entries) (name : String) : Entries :=
  entries.filter (·.1 ≠ name)

/-- Changes the table at the end of a path by `f`, which also sees whether that table is dotted.
Tables missing on the way are added. A key may not lead into a table with a header of its own. -/
def alter {α : Type} (byKey : Bool) (f : Bool → Entries → Option (α × Entries)) :
    List String → Bool → Entries → Option (α × Entries)
  | [], dotted, entries => f dotted entries
  | name :: path, _, entries =>
    match entries.lookup name with
    | none => do
      let (a, inner) ← alter byKey f path byKey []
      pure (a, entries ++ [(name, .table true byKey inner)])
    | some (.value _) => none
    | some (.tables elements) =>
      match elements.getLast? with
      | none => none
      | some last => do
        let (a, last) ← alter byKey f path false last
        pure (a, entries.replace name (.tables (elements.dropLast ++ [last])))
    | some (.table isImplicit dotted inner) =>
      if byKey && !isImplicit then none else do
        let (a, inner) ← alter byKey f path dotted inner
        pure (a, entries.replace name (.table isImplicit dotted inner))

/-- Adds an entry under a key of one or more parts. -/
def addEntry (entries : Entries) (path : List String) (name : String) (item : Item) :
    Option Entries :=
  Prod.snd <$> alter true (fun dotted es =>
    if dotted == path.isEmpty || (es.lookup name).isSome then none
    else some ((), es ++ [(name, item)])) path false entries

/-- Takes the table that a header opens out of its parent. It starts empty unless the way to another
table has made it already. -/
def openTable (root : Entries) (path : List String) (name : String) : Option (Entries × Entries) :=
  alter false (fun _ es =>
    match es.lookup name with
    | none => some ([], es)
    | some (.table true false inner) => some (inner, es.erase name)
    | some _ => none) path false root

/-- Makes room for one more table under a header that may come again. -/
def openElement (root : Entries) (path : List String) (name : String) : Option Entries :=
  Prod.snd <$> alter false (fun _ es =>
    match es.lookup name with
    | none => some ((), es ++ [(name, .tables [])])
    | some (.tables _) => some ((), es)
    | some _ => none) path false root

def closeTable (root : Entries) (path : List String) (name : String) (table : Entries) :
    Option Entries :=
  Prod.snd <$> alter false (fun _ es =>
    if (es.lookup name).isSome then none else some ((), es ++ [(name, .table false false table)]))
      path false root

def closeElement (root : Entries) (path : List String) (name : String) (table : Entries) :
    Option Entries :=
  Prod.snd <$> alter false (fun _ es =>
    match es.lookup name with
    | some (.tables elements) => some ((), es.replace name (.tables (elements ++ [table])))
    | _ => none) path false root

end Entries

end Bindery.Toml
