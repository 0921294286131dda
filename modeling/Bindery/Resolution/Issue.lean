import Bindery.Json.Basic

/-!
What could not be resolved. An issue is recorded for every placeholder that is made, also for one
that is dropped with the arguments around it.
-/

namespace Bindery

inductive IssueKind where
  /-- A primitive that the spec lists and the target does not know. -/
  | unmappablePrimitive
  /-- A template that the target does not know, or not with so many arguments. -/
  | unmappableTemplate
  /-- A name that nothing declares. -/
  | unresolvedIdentifier
  deriving DecidableEq, Repr

namespace IssueKind

def all : List IssueKind := [.unmappablePrimitive, .unmappableTemplate, .unresolvedIdentifier]

def text : IssueKind → String
  | .unmappablePrimitive => "unmappable primitive"
  | .unmappableTemplate => "unmappable template"
  | .unresolvedIdentifier => "unresolved identifier"

def tag : IssueKind → String
  | .unmappablePrimitive => "unmappable-primitive"
  | .unmappableTemplate => "unmappable-template"
  | .unresolvedIdentifier => "unresolved-identifier"

end IssueKind

structure Issue where
  kind : IssueKind
  /-- The full name in the spec. -/
  identifier : String
  /-- The entity or member that was being written. -/
  location : String
  detail : Option String := none
  deriving DecidableEq, Repr

namespace Issue

def text (i : Issue) : String :=
  i.kind.text ++ " `" ++ i.identifier ++ "`" ++
    (if i.location.isEmpty then "" else " in " ++ i.location) ++
    (i.detail.map fun d => " (" ++ d ++ ")").getD ""

def toJson (i : Issue) : Json :=
  .object ([
    ("kind", .string i.kind.tag),
    ("identifier", .string i.identifier),
    ("location", .string i.location)] ++ Json.optionalMember "detail" .string i.detail)

end Issue

end Bindery
