/-!
Messages for people: what is wrong, where, and what may help.
-/

namespace Bindery

inductive Severity where
  | error
  | warning
  deriving DecidableEq, Repr

def Severity.text : Severity → String
  | .error => "error"
  | .warning => "warning"

structure Diagnostic where
  severity : Severity
  message : String
  context : List String := []
  suggestions : List String := []
  /-- The file it is about. -/
  location : Option String := none
  deriving DecidableEq, Repr

namespace Diagnostic

/-- Adds a suggestion unless it is there already. -/
def suggest (suggestions : List String) (s : String) : List String :=
  if suggestions.contains s then suggestions else suggestions ++ [s]

def escapeCode : String := "\x1b"

/-- A word in bold and in the colour of that number. -/
def coloured (colour : Nat) (word : String) : String :=
  escapeCode ++ s!"[1;{colour}m" ++ word ++ escapeCode ++ "[0m"

def severityText (colour : Bool) (s : Severity) : String :=
  if colour then coloured (match s with | .error => 31 | .warning => 33) s.text else s.text

/-- Lines numbered from `n` on. -/
def numbered (n : Nat) : List String → List String
  | [] => []
  | s :: rest => s!"  {n}. {s}\n" :: numbered (n + 1) rest

def helpText (colour : Bool) (suggestions : List String) : String :=
  if suggestions.isEmpty then "" else
    "\n" ++ (if colour then coloured 32 "help" else "help") ++ ": consider:\n" ++
      String.join (numbered 1 suggestions)

def render (colour : Bool) (d : Diagnostic) : String :=
  severityText colour d.severity ++ ": " ++ d.message ++ "\n" ++
    (d.location.map fun path => s!"  --> {path}\n").getD "" ++
    String.join (d.context.map fun line => s!"  - {line}\n") ++
    helpText colour d.suggestions

end Diagnostic

end Bindery
