import Bindery.Files.Operations

/-!
Snapshots: trees of which only some paths have been looked up, and the changes that carry what was
done to a snapshot over to the tree it was taken from.
-/

namespace Bindery

/-- One step on a tree of files. -/
inductive Change where
  | removeTree (location : Location)
  | makeDirectory (location : Location)
  | writeFile (location : Location) (content : Content)
  deriving DecidableEq, Repr

namespace Snapshot

/-- Marks a directory whose other entries are unknown. No path has a part of this name, so the
mark goes away only with its directory. -/
def mark : String := "/"

def markedDirectory : Entry := .directory [(mark, .file (.text ""))]

/-- Every location that following the parts of a path comes by. -/
def stations : List String → Location → List Location
  | [], l => [l]
  | part :: rest, l =>
    if part = "" || part = "." then stations rest l
    else if part = ".." then l :: stations rest l.dropLast
    else l :: stations rest (l ++ [part])

/-- The locations that a path comes by from a working directory. -/
def stationsOf (working : Location) (path : String) : List Location :=
  stations (Path.rawParts path) (if Path.isAbsolute path then [] else working)

mutual
/-- Puts an entry where there is none. -/
def additions (l : Location) : Entry → List Change
  | .file content => [.writeFile l content]
  | .directory entries => .makeDirectory l :: additionsIn l entries

def additionsIn (l : Location) : List (String × Entry) → List Change
  | [] => []
  | (name, e) :: rest => additions (l ++ [name]) e ++ additionsIn l rest
end

/-- The entries that are gone. -/
def removals (l : Location) (old new : List (String × Entry)) : List Change :=
  (old.filter fun (name, _) => (new.lookup name).isNone).map fun (name, _) =>
    .removeTree (l ++ [name])

mutual
/-- The changes from an old entry to a new one. A directory that lost its mark was removed and made
again. -/
def changes (l : Location) (old : Entry) : Entry → List Change
  | .file content =>
    match old with
    | .file before => if before = content then [] else [.writeFile l content]
    | .directory _ => [.removeTree l, .writeFile l content]
  | .directory entries =>
    match old with
    | .file _ => .removeTree l :: .makeDirectory l :: additionsIn l entries
    | .directory before =>
      if (before.lookup mark).isSome && (entries.lookup mark).isNone then
        .removeTree l :: .makeDirectory l :: additionsIn l entries
      else removals l before entries ++ changesIn l before entries

def changesIn (l : Location) (old : List (String × Entry)) : List (String × Entry) → List Change
  | [] => []
  | (name, e) :: rest =>
    (match old.lookup name with
      | some before => changes (l ++ [name]) before e
      | none => additions (l ++ [name]) e) ++ changesIn l old rest
end

end Snapshot

end Bindery
