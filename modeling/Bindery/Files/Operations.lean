import Bindery.Files.Fault
import Bindery.Files.Path
import Bindery.Files.Tree

/-!
What programs do with files: looking up, reading, writing, making and removing directories. Paths
that are not absolute start at the working directory.

Files form a tree. Symbolic links and hard links are assumed away: a location has one path without
points and double points, and a file has one location.
-/

namespace Bindery

/-- All files, and the directory that a program works in. -/
structure FileSystem where
  root : Entry
  working : Location
  deriving Repr, Inhabited

namespace FileSystem

def nameLimit : Nat := 255

def pathLimit : Nat := 4096

/-- Follows the parts of a path. All but the last must be directories, and so must what an empty
part or a point is said of. -/
def follow (root : Entry) :
    List String → Location → Option Entry → Except OsFault (Location × Option Entry)
  | [], location, e => pure (location, e)
  | _ :: _, _, none => throw .notFound
  | _ :: _, _, some (.file _) => throw .notADirectory
  | part :: rest, location, some (.directory entries) =>
    if part = "" || part = "." then follow root rest location (some (.directory entries))
    else if part = ".." then follow root rest location.dropLast (root.get? location.dropLast)
    else if nameLimit < part.utf8ByteSize then throw .nameTooLong
    else follow root rest (location ++ [part]) (entries.lookup part)

/-- Where a path leads to, and what is there. -/
def locate (fs : FileSystem) (path : String) : Except OsFault (Location × Option Entry) :=
  if path.contains '\x00' then throw .nulInPath
  else if path.isEmpty then throw .notFound
  else if pathLimit ≤ path.utf8ByteSize then throw .nameTooLong
  else if Path.isAbsolute path then follow fs.root (Path.rawParts path) [] (some fs.root)
  else follow fs.root (Path.rawParts path) fs.working (fs.root.get? fs.working)

def workingPath (fs : FileSystem) : String :=
  "/" ++ Text.joined "/" fs.working

/-- The path of the working directory, which another program may have removed. -/
def workingDirectory (fs : FileSystem) : Except OsFault String :=
  match fs.root.get? fs.working with
  | some (.directory _) => pure fs.workingPath
  | _ => throw .notFound

def entry? (fs : FileSystem) (path : String) : Option Entry :=
  match fs.locate path with
  | .ok (_, e) => e
  | .error _ => none

/-- Whether something is there. A path that cannot be followed leads to nothing. -/
def exists? (fs : FileSystem) (path : String) : Bool :=
  (fs.entry? path).isSome

def isDirectory (fs : FileSystem) (path : String) : Bool :=
  (fs.entry? path).any Entry.isDirectory

def readText (fs : FileSystem) (path : String) : Except OsFault String := do
  match ← fs.locate path with
  | (_, none) => throw .notFound
  | (_, some (.directory _)) => throw .isADirectory
  | (_, some (.file (.raw _))) => throw .notUtf8
  | (_, some (.file (.text s))) => pure s

/-- Writes a file anew. -/
def writeText (fs : FileSystem) (path text : String) : Except OsFault FileSystem := do
  match ← fs.locate path with
  | (_, some (.directory _)) => throw .isADirectory
  | (location, _) => pure { fs with root := fs.root.put location (.file (.text text)) }

/-- Adds to the end of a file, which is made if there is none. -/
def appendText (fs : FileSystem) (path text : String) : Except OsFault FileSystem := do
  match ← fs.locate path with
  | (_, some (.directory _)) => throw .isADirectory
  | (location, some (.file content)) =>
    pure { fs with root := fs.root.put location (.file (content.append text)) }
  | (location, none) => pure { fs with root := fs.root.put location (.file (.text text)) }

def makeDirectory (fs : FileSystem) (path : String) : Except OsFault FileSystem := do
  match ← fs.locate path with
  | (_, some _) => throw .alreadyExists
  | (location, none) => pure { fs with root := fs.root.put location (.directory []) }

/-- Makes a directory unless there is one. -/
def makeIfMissing (fs : FileSystem) (path : String) : Except OsFault FileSystem :=
  match fs.makeDirectory path with
  | .ok fs => pure fs
  | .error fault => if fs.isDirectory path then pure fs else throw fault

/-- The path of parts given from the last to the first. -/
def pathOf (absolute : Bool) (reversed : List String) : String :=
  (if absolute then "/" else "") ++ Text.joined "/" reversed.reverse

/-- Makes a directory and those on the way to it, given the parts of its path from the last to the
first. The way is made only where something on it is missing, and what was made of it stays. -/
def makeAlong (absolute : Bool) : List String → FileSystem → Option OsFault × FileSystem
  | [], fs => (none, fs)
  | part :: parents, fs =>
    let path := pathOf absolute (part :: parents)
    let finish (fs : FileSystem) : Option OsFault × FileSystem :=
      match fs.makeIfMissing path with
      | .ok fs => (none, fs)
      | .error fault => (some fault, fs)
    match fs.makeDirectory path with
    | .error .notFound =>
      match makeAlong absolute parents fs with
      | (none, fs) => finish fs
      | r => r
    | _ => finish fs

def makeDirectories (fs : FileSystem) (path : String) : Option OsFault × FileSystem :=
  if path.contains '\x00' then (some .nulInPath, fs)
  else makeAlong (Path.isAbsolute path) (Path.parts path).reverse fs

/-- Removes a directory with all that is in it. -/
def removeDirectory (fs : FileSystem) (path : String) : Except OsFault FileSystem := do
  match ← fs.locate path with
  | (_, none) => throw .notFound
  | (_, some (.file _)) => throw .notADirectory
  | (location, some (.directory _)) => pure { fs with root := fs.root.remove location }

/-- Removes a directory if it is there. -/
def clear (fs : FileSystem) (path : String) : Except FileFault FileSystem :=
  if fs.exists? path then
    (fs.removeDirectory path).mapError (⟨.removeDirectory, path, ·⟩)
  else pure fs

/-- Makes sure that a directory is there. -/
def ensure (fs : FileSystem) (path : String) : Option FileFault × FileSystem :=
  if fs.exists? path then (none, fs)
  else
    let (fault, fs) := fs.makeDirectories path
    (fault.map (⟨.createDirectory, path, ·⟩), fs)

/-- Writes a file in a directory, which is made if need be. -/
def writeIn (fs : FileSystem) (directory name text : String) : Option FileFault × FileSystem :=
  match fs.ensure directory with
  | (none, fs) =>
    let path := Path.join directory name
    match fs.writeText path text with
    | .ok fs => (none, fs)
    | .error cause => (some ⟨.writeFile, path, cause⟩, fs)
  | r => r

end FileSystem

end Bindery
