import Bindery.Log
import Bindery.Naming
import Bindery.Spec.Walk
import Bindery.Target.Block
import Bindery.Text.Case
import Bindery.Validation

/-!
Targets: the languages that bindings are written for. What a target does for a spec is a list of
actions: it opens units, adds lines to them, and closes them.
-/

namespace Bindery

inductive TargetId where
  | typescript
  | python
  deriving DecidableEq, Repr

namespace TargetId

def all : List TargetId := [.typescript, .python]

def name : TargetId → String
  | .typescript => "typescript"
  | .python => "python"

/-- A full or a short name, in any case. -/
def ofName? (s : String) : Option TargetId :=
  let lower := String.ofList (s.toList.flatMap Text.toLower)
  if lower = "typescript" || lower = "ts" then some .typescript
  else if lower = "python" || lower = "py" then some .python
  else none

def unknownMessage (s : String) : String :=
  s!"unknown target '{s}'; expected 'typescript' or 'python'"

end TargetId

/-- What heads every unit. -/
def generatedBanner : String :=
  "This file is generated: Update the spec instead of editing this file directly"

/-- What is noted on a visit: every entity, and every placeholder for a type. -/
def Visit.log (r : Resolver) : Visit → List LogEntry
  | .entity kind name => [.debug s!"emitting {kind.text} {name}"]
  | .type location t => ((r.located location).resolve t).issues.map fun i =>
    .debug s!"placeholder for {i.kind.text} `{i.identifier}` in {i.location}"

/-- One step of writing. Units go by their names. -/
inductive Action where
  | note (entries : List LogEntry)
  /-- Opens a unit. -/
  | start (unit : String) (postProcess : List String)
  /-- Adds lines to a unit, with the issues that were met on the way to them. -/
  | add (unit : String) (block : Block)
  /-- Gives up on an enumeration that cannot be written. -/
  | refuse (violations : List Violation)
  /-- Hands a unit over. -/
  | close (unit : String)
  deriving Repr

structure Target where
  id : TargetId
  description : String
  /-- The module that the bridge loads if no other is configured. -/
  bridgeModule : String
  mapping : Mapping
  /-- How all its identifiers are made. -/
  identifiers : IdentifierRules
  /-- What it does for a spec and a bridge module. -/
  actions : Spec → String → List Action

/-- The names of the units, which are the same for every spec. -/
def Target.unitNames (t : Target) : List String :=
  (t.actions {} t.bridgeModule).filterMap fun
    | .close unit => some unit
    | _ => none

/-- A member of an enumeration that can be written. -/
inductive Constant where
  | named (name : String)
  | flag (name literal : String)
  deriving DecidableEq, Repr

namespace Constant

/-- The members of a flag enumeration, together with those that have no integer. -/
def ofFlags (enumeration : String) :
    List (String × Option Number) → List Constant × List Violation
  | [] => ([], [])
  | (member, value) :: rest =>
    let (constants, violations) := ofFlags enumeration rest
    match value with
    | none => (constants, .flagWithoutValue enumeration member :: violations)
    | some number =>
      match number.literal? with
      | some literal => (.flag member literal :: constants, violations)
      | none => (constants, .flagNotInteger enumeration member number.text :: violations)

/-- The members of an enumeration, unless some of them cannot be written. -/
def ofEnumeration (name : String) (e : Enumeration) : Except (List Violation) (List Constant) :=
  match e.isFlag, e.members with
  | false, .plain members => .ok (members.map .named)
  | false, .valued _ => .error [.plainWithValues name]
  | true, .plain members =>
    if members.isEmpty then .ok [] else .error (members.map (.flagWithoutValue name))
  | true, .valued values =>
    match ofFlags name values.entries with
    | (constants, []) => .ok constants
    | (_, violations) => .error violations

end Constant

/-- Enumerations are noted and added to a unit one after the other, unless they are refused. -/
def enumerationActions (r : Resolver) (unit : String)
    (write : String → Enumeration → List Constant → List String)
    (entries : List (String × Enumeration)) : List Action :=
  entries.flatMap fun (name, e) => [
    .note (Visit.log r (.entity .enumeration name)),
    match Constant.ofEnumeration name e with
    | .ok constants => .add unit (.ofLines (write name e constants))
    | .error violations => .refuse violations]

end Bindery
