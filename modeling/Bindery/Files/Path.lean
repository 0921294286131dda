import Bindery.Text.Case
import Bindery.Text.Split

/-!
Paths as texts: their parts, and how they are put together.
-/

namespace Bindery.Path

def isAbsolute (path : String) : Bool :=
  path.startsWith "/"

/-- The texts between the slashes, empty ones included. -/
def rawParts (path : String) : List String :=
  Text.pieces "/" path

/-- The parts that lead somewhere: neither empty nor a single point. -/
def parts (path : String) : List String :=
  (rawParts path).filter fun part => part ≠ "" && part ≠ "."

/-- A path as seen from a directory. An absolute one stays as it is. -/
def join (directory path : String) : String :=
  if isAbsolute path || directory.isEmpty then path
  else if directory.endsWith "/" then directory ++ path
  else directory ++ "/" ++ path

/-- The last part, if it names something. -/
def fileName? (path : String) : Option String :=
  match (parts path).getLast? with
  | some ".." => none
  | name => name

/-- What follows the last point of a name that has something before it. -/
def extension? (path : String) : Option String := do
  let name := (← fileName? path).toList.reverse
  let after := name.takeWhile (· ≠ '.')
  match name.drop after.length with
  | [] | [_] => none
  | _ => some (String.ofList after.reverse)

/-- The extension in lower case. -/
def lowerExtension? (path : String) : Option String :=
  (extension? path).map fun e => String.ofList (e.toList.flatMap Text.toLower)

end Bindery.Path
