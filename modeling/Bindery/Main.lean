import Bindery.Command.Basic
import Bindery.Files.Snapshot

/-!
The command line: takes a snapshot of the files that a command is about, runs the command on it, and
carries the changes over. Programs are never started, so the steps after writing are skipped.
-/

namespace Bindery.Shell

def pathTo (l : Location) : String := "/" ++ Text.joined "/" l

/-- What stands at a location whose parent is a directory. -/
def lookUp (l : Location) : IO (Option Entry) := do
  match ← (IO.FS.readBinFile (pathTo l)).toBaseIO with
  | .ok bytes => return some (.file (.ofBytes bytes.toList))
  | .error (.inappropriateType ..) => return some Snapshot.markedDirectory
  | .error _ => return none

/-- Looks up a location unless the snapshot has it, or has no directory for it. -/
def survey (root : Entry) (l : Location) : IO Entry := do
  match root.get? l, root.get? l.dropLast with
  | none, some (.directory _) =>
    match ← lookUp l with
    | some e => return root.put l e
    | none => return root
  | _, _ => return root

/-- Takes in everything that paths come by. -/
def surveyAll (fs : FileSystem) (paths : List String) : IO FileSystem := do
  let root ← (paths.flatMap (Snapshot.stationsOf fs.working)).foldlM survey fs.root
  return { fs with root }

def carryOut : Change → IO Unit
  | .removeTree l => IO.FS.removeDirAll (pathTo l)
  | .makeDirectory l => IO.FS.createDir (pathTo l)
  | .writeFile l content => IO.FS.writeBinFile (pathTo l) ⟨content.bytes.toArray⟩

def environment : IO Environment := do
  return { home := ← IO.getEnv "HOME", output := ← IO.getEnv "BINDSPEC_OUTPUT_DIR" }

/-- Where a program works whose working directory was removed: nothing is in the mark. -/
def nowhere : Location := [Snapshot.mark, Snapshot.mark]

/-- The files around a command. -/
def filesFor (words : List String) (e : Environment) : IO FileSystem := do
  let working ← match ← (IO.currentDir).toBaseIO with
    | .ok directory => pure (Path.parts directory.toString)
    | .error _ => pure nowhere
  let start : FileSystem := ⟨Snapshot.markedDirectory, working⟩
  match Command.accept words e with
  | .error _ => return start
  | .ok invocation =>
    let directory := start.workingPath
    let fs ← surveyAll start (directory :: invocation.command.sources e directory)
    surveyAll fs (invocation.command.products e fs)

def wantsColour (words : List String) (e : Environment) : Bool :=
  match Command.accept words e with
  | .ok invocation => !invocation.noColour
  | .error _ => false

end Bindery.Shell

open Bindery Shell in
/-- Runs the command that the words spell, and answers its status. -/
def main (words : List String) : IO UInt32 := do
  let e ← environment
  let files ← filesFor words e
  let outcome := Command.execute words e { files }
  (Snapshot.changes [] files.root outcome.machine.files.root).forM carryOut
  outcome.log.forM fun entry => IO.eprint (entry.render (wantsColour words e))
  IO.print outcome.output
  IO.eprint outcome.complaints
  return outcome.status.toUInt32
