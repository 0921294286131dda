import Bindery.Json.Basic
import Bindery.Text.Split

/-!
Output units: the files that a target writes, line by line, and what became of them.
-/

namespace Bindery

structure OutputUnit where
  name : String
  lines : List String := []
  /-- The steps to run on the file once it is written. -/
  postProcess : List String := []
  deriving DecidableEq, Repr, Inhabited

namespace OutputUnit

def addLines (u : OutputUnit) (lines : List String) : OutputUnit :=
  { u with lines := u.lines ++ lines }

def addLine (u : OutputUnit) (line : String) : OutputUnit :=
  u.addLines [line]

/-- Adds one line of several words. -/
def write (u : OutputUnit) (words : List String) : OutputUnit :=
  u.addLine (Text.joined " " words)

/-- The text of the file; it ends with a line feed even if there is no line. -/
def text (u : OutputUnit) : String :=
  Text.joined "\n" u.lines ++ "\n"

end OutputUnit

/-- How a step after writing went. -/
inductive StepOutcome where
  | passed (step : String)
  | failed (step message : String)
  | skipped (step reason : String)
  deriving DecidableEq, Repr

namespace StepOutcome

def isFailure : StepOutcome → Bool
  | .failed .. => true
  | _ => false

def toJson : StepOutcome → Json
  | .passed step => .object [("status", .string "passed"), ("step", .string step)]
  | .failed step message =>
    .object [("status", .string "failed"), ("step", .string step), ("message", .string message)]
  | .skipped step reason =>
    .object [("status", .string "skipped"), ("step", .string step), ("reason", .string reason)]

end StepOutcome

/-- What became of a unit. -/
structure UnitSummary where
  name : String
  /-- Where it was written, if it was. -/
  path : Option String := none
  lines : Nat
  postProcess : List StepOutcome := []
  deriving DecidableEq, Repr, Inhabited

def UnitSummary.toJson (u : UnitSummary) : Json :=
  .object ([("name", .string u.name)] ++
    Json.optionalMember "path" .string u.path ++
    [("lines", .integer u.lines)] ++
    if u.postProcess.isEmpty then []
    else [("post_process", .list (u.postProcess.map StepOutcome.toJson))])

end Bindery
