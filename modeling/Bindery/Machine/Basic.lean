import Bindery.Files.Operations

/-!
A machine: files, and programs that are found by name and run on them.
-/

namespace Bindery

/-- A program that has been started: with what arguments and in which directory. -/
structure Call where
  arguments : List String
  directory : Location

/-- How a run ended. -/
structure Finish where
  /-- None if the program was killed. -/
  status : Option Nat
  output : String
  complaints : String
  deriving DecidableEq, Repr

namespace Finish

def isSuccess (f : Finish) : Bool :=
  f.status = some 0

def statusText (f : Finish) : String :=
  match f.status with
  | some n => s!"Some({n})"
  | none => "None"

end Finish

/-- What a file does as a program. -/
inductive Program where
  | run (behaviour : Call → FileSystem → Finish × FileSystem)
  /-- May be started, but cannot start. -/
  | broken

structure Machine where
  files : FileSystem
  /-- The files that may be executed. All others may not. -/
  programs : List (Location × Program) := []
  /-- The directories in which programs are looked for. -/
  searchPath : List String := []

/-- A program by name or path, its arguments, and the directory to run it in. -/
structure CommandLine where
  program : String
  arguments : List String
  directory : Option String := none
  deriving DecidableEq, Repr

namespace CommandLine

def text (c : CommandLine) : String :=
  Text.joined " " (c.program :: c.arguments)

end CommandLine

/-- Why a command did not succeed. -/
inductive RunFault where
  | notStarted (program : String) (cause : OsFault)
  | unsuccessful (command : CommandLine) (finish : Finish)
  deriving Repr

def RunFault.message : RunFault → String
  | .notStarted program cause => "failed to run `" ++ program ++ "`: " ++ cause.message
  | .unsuccessful command finish =>
    "`" ++ command.text ++ "` failed with exit code " ++ finish.statusText ++ "\n" ++
      finish.output ++ finish.complaints

namespace Machine

/-- The program that a path leads to. -/
def programAt (m : Machine) (fs : FileSystem) (path : String) : Except OsFault Program := do
  match ← fs.locate path with
  | (_, none) => throw .notFound
  | (_, some (.directory _)) => throw .permissionDenied
  | (location, some (.file _)) =>
    match m.programs.lookup location with
    | some program => pure program
    | none => throw .permissionDenied

def isExecutable (m : Machine) (path : String) : Bool :=
  (m.programAt m.files path).isOk

/-- Whether a name is a path of its own, so that it is not looked for. -/
def isPath (name : String) : Bool :=
  Path.isAbsolute name && !(Path.parts name).isEmpty ||
    1 < (Path.parts name).length + (if (Path.rawParts name).head? = some "." then 1 else 0)

/-- The path of the program of that name, if it may be executed. -/
def find? (m : Machine) (name : String) : Option String :=
  if name.isEmpty then none
  else if isPath name then
    let path :=
      if Path.isAbsolute name then name
      else Path.join m.files.workingPath (Text.joined "/" (Path.parts name))
    if m.isExecutable path then some path else none
  else (m.searchPath.map (Path.join · name)).find? m.isExecutable

/-- Looks for a name in the directories of the search path. A file that may not be executed is only
remembered. -/
def searchFrom (m : Machine) (fs : FileSystem) (name : String) (fault : OsFault) :
    List String → Except OsFault Program
  | [] => throw fault
  | directory :: rest =>
    match m.programAt fs (Path.join directory name) with
    | .ok program => pure program
    | .error .permissionDenied => searchFrom m fs name .permissionDenied rest
    | .error _ => searchFrom m fs name fault rest

/-- The program that a name starts. A name that no file could have is not even looked for. -/
def programFor (m : Machine) (fs : FileSystem) (name : String) : Except OsFault Program :=
  if name.isEmpty then throw .notFound
  else if name.contains '/' then m.programAt fs name
  else if FileSystem.nameLimit < name.utf8ByteSize then throw .nameTooLong
  else searchFrom m fs name .notFound m.searchPath

/-- The files as a command sees them, which may work in another directory. -/
def enterDirectory (m : Machine) (directory : Option String) : Except OsFault FileSystem := do
  match directory with
  | none => pure m.files
  | some path =>
    match ← m.files.locate path with
    | (_, none) => throw .notFound
    | (_, some (.file _)) => throw .notADirectory
    | (location, some (.directory _)) => pure { m.files with working := location }

/-- Arguments must be shorter, in bytes. -/
def argumentLimit : Nat := 131072

/-- Starts a command and waits for it. The program is looked for before its arguments are passed. -/
def start (m : Machine) (c : CommandLine) : Except OsFault (Finish × Machine) := do
  if (c.program :: c.arguments ++ c.directory.toList).any (·.contains '\x00') then throw .nulInCall
  let fs ← m.enterDirectory c.directory
  let program ← m.programFor fs c.program
  if c.arguments.any (argumentLimit ≤ ·.utf8ByteSize) then throw .argumentTooLong
  match program with
  | .broken => throw .notFound
  | .run behaviour =>
    let (finish, fs) := behaviour ⟨c.arguments, fs.working⟩ fs
    pure (finish, { m with files := { m.files with root := fs.root } })

/-- Runs a command to its end. -/
def run (m : Machine) (c : CommandLine) : Except RunFault (Finish × Machine) :=
  (m.start c).mapError (.notStarted c.program)

/-- Runs a command that must succeed. What it did to the files stays done. -/
def runChecked (m : Machine) (c : CommandLine) : Option RunFault × Machine :=
  match m.run c with
  | .error fault => (some fault, m)
  | .ok (finish, m) => (if finish.isSuccess then none else some (.unsuccessful c finish), m)

end Machine

end Bindery
