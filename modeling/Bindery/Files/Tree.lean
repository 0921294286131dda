import Bindery.Files.Content

/-!
Trees of files. A location is the list of names from the root down.
-/

namespace Bindery

inductive Entry where
  | file (content : Content)
  | directory (entries : List (String × Entry))
  deriving Repr

instance : Inhabited Entry := ⟨.directory []⟩

abbrev Location := List String

namespace Entry

def isDirectory : Entry → Bool
  | .directory _ => true
  | .file _ => false

def get? : Location → Entry → Option Entry
  | [], e => some e
  | _ :: _, .file _ => none
  | name :: rest, .directory entries =>
    match entries.lookup name with
    | some e => e.get? rest
    | none => none

/-- Changes the entry of that name. -/
def change (name : String) (f : Entry → Entry) (entries : List (String × Entry)) :
    List (String × Entry) :=
  entries.map fun (k, e) => if k = name then (k, f e) else (k, e)

/-- Puts an entry at a location, in place of one that is there. Nothing happens if its directory is
missing. -/
def put : Location → Entry → Entry → Entry
  | [], _, new => new
  | _ :: _, .file content, _ => .file content
  | name :: rest, .directory entries, new =>
    if (entries.lookup name).isSome then .directory (change name (put rest · new) entries)
    else if rest.isEmpty then .directory (entries ++ [(name, new)])
    else .directory entries

/-- Takes an entry away with all that is in it. -/
def remove : Location → Entry → Entry
  | [], e => e
  | _ :: _, .file content => .file content
  | name :: rest, .directory entries =>
    if rest.isEmpty then .directory (entries.filter (·.1 ≠ name))
    else .directory (change name (remove rest) entries)

/-- Puts an entry at a location and makes the directories on the way. -/
def plant : Location → Entry → Entry → Entry
  | [], _, new => new
  | name :: rest, .directory entries, new =>
    if (entries.lookup name).isSome then .directory (change name (plant rest · new) entries)
    else .directory (entries ++ [(name, plant rest (.directory []) new)])
  | name :: rest, .file _, new => .directory [(name, plant rest (.directory []) new)]

mutual
/-- Everything in an entry by its path: files with their content, directories ending in a slash. -/
def listing (path : String) : Entry → List (String × Option Content)
  | .file content => [(path, some content)]
  | .directory entries => (path ++ "/", none) :: listings (path ++ "/") entries

def listings (directory : String) : List (String × Entry) → List (String × Option Content)
  | [] => []
  | (name, e) :: rest => listing (directory ++ name) e ++ listings directory rest
end

end Entry

end Bindery
