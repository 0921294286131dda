/-!
Why the system refuses an operation on files.
-/

namespace Bindery

inductive OsFault where
  | notFound
  | permissionDenied
  | alreadyExists
  | notADirectory
  | isADirectory
  | nameTooLong
  /-- A path with a character that no path can hold. -/
  | nulInPath
  | nulInCall
  | argumentTooLong
  | notUtf8
  deriving DecidableEq, Repr

def OsFault.message : OsFault → String
  | .notFound => "No such file or directory (os error 2)"
  | .permissionDenied => "Permission denied (os error 13)"
  | .alreadyExists => "File exists (os error 17)"
  | .notADirectory => "Not a directory (os error 20)"
  | .isADirectory => "Is a directory (os error 21)"
  | .nameTooLong => "File name too long (os error 36)"
  | .nulInPath => "file name contained an unexpected NUL byte"
  | .nulInCall => "nul byte found in provided data"
  | .argumentTooLong => "Argument list too long (os error 7)"
  | .notUtf8 => "stream did not contain valid UTF-8"

/-- What was tried. -/
inductive FileAction where
  | createDirectory
  | removeDirectory
  | writeFile
  | readSpec
  | readConfig
  deriving DecidableEq, Repr

/-- What was tried on which path, and what stood in the way. -/
structure FileFault where
  action : FileAction
  path : String
  cause : OsFault
  deriving DecidableEq, Repr

namespace FileFault

def headline (f : FileFault) : String :=
  (match f.action with
    | .createDirectory => "failed to create directory: "
    | .removeDirectory => "failed to remove directory: "
    | .writeFile => "failed to write file: "
    | .readSpec => "failed to read spec: "
    | .readConfig => "failed to read config file: ") ++ f.path

/-- The action with its cause. -/
def message (f : FileFault) : String :=
  f.headline ++ ": " ++ f.cause.message

end FileFault

end Bindery
