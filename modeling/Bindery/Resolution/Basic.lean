import Bindery.Resolution.Issue
import Bindery.Resolution.Mapping
import Bindery.Spec.Json

/-!
Resolution: from a type expression to the text of a type. It never fails. Where a target has no
type, a placeholder stands in its place and an issue is recorded.
-/

namespace Bindery

/-- A text, and the issues that were met on the way to it. -/
structure Resolved (α : Type) where
  value : α
  issues : List Issue
  deriving Repr

/-- What types are resolved against, and the place that issues are recorded for. -/
structure Resolver where
  spec : Spec
  mapping : Mapping
  location : String := ""

namespace Resolver

/-- Resolves for another place. -/
def located (r : Resolver) (location : String) : Resolver := { r with location }

/-- Notes modifiers, if there are any. -/
def annotated (r : Resolver) (text : String) (modifiers : List String) : String :=
  if modifiers.isEmpty then text else r.mapping.annotate text modifiers

/-- Makes a type read-only if it is constant. -/
def guarded (r : Resolver) (isConst : Bool) (text : String) : String :=
  if isConst then r.mapping.readonly text else text

/-- A declared name counts before a primitive of that name. -/
def resolveName (r : Resolver) (fullName : String) : Resolved String :=
  if r.spec.declares fullName then ⟨r.mapping.declared fullName, []⟩
  else
    match r.mapping.primitive? fullName with
    | some text => ⟨text, []⟩
    | none =>
      let kind :=
        if r.spec.isPrimitive fullName then IssueKind.unmappablePrimitive
        else IssueKind.unresolvedIdentifier
      ⟨r.mapping.placeholder fullName, [⟨kind, fullName, r.location, none⟩]⟩

/-- What the placeholder of a template shows: its name and its arguments. -/
def templateDetail (fullName : String) (arguments : List TypeExpr) : String :=
  fullName ++ "<" ++ (Json.list (TypeExpr.listToJson arguments)).compact ++ ">"

def arityDetail (expected found : Nat) : String :=
  s!"expected {expected} argument(s), found {found}"

mutual
def resolve (r : Resolver) : TypeExpr → Resolved String
  | .name path isConst indirection =>
    let inner := r.resolveName (joinPath path)
    ⟨r.guarded isConst (r.annotated inner.value indirection.names), inner.issues⟩
  | .template path arguments isConst =>
    let fullName := joinPath path
    match r.mapping.template? fullName with
    | none =>
      ⟨r.guarded isConst (r.mapping.placeholder (templateDetail fullName arguments)),
        [⟨.unmappableTemplate, fullName, r.location, none⟩]⟩
    | some rule =>
      let inner := r.resolveAll arguments
      if arguments.length = rule.arity then
        ⟨r.guarded isConst (rule.render inner.value), inner.issues⟩
      else
        ⟨r.guarded isConst (r.mapping.placeholder (templateDetail fullName arguments)),
          inner.issues ++ [⟨.unmappableTemplate, fullName, r.location,
            some (arityDetail rule.arity arguments.length)⟩]⟩
  | .function arguments result isConst isNoExcept =>
    let inputs := r.resolveArguments arguments
    let output := r.resolve result
    let text := r.mapping.function inputs.value output.value
    ⟨r.guarded isConst (r.annotated text (if isNoExcept then ["noexcept"] else [])),
      inputs.issues ++ output.issues⟩

def resolveAll (r : Resolver) : List TypeExpr → Resolved (List String)
  | [] => ⟨[], []⟩
  | t :: ts =>
    let first := r.resolve t
    let rest := r.resolveAll ts
    ⟨first.value :: rest.value, first.issues ++ rest.issues⟩

/-- Resolves arguments, each with the name it has in the target. -/
def resolveArguments (r : Resolver) : List (String × TypeExpr) → Resolved (List (String × String))
  | [] => ⟨[], []⟩
  | (name, t) :: rest =>
    let first := r.resolve t
    let others := r.resolveArguments rest
    ⟨(r.mapping.naming.apply name, first.value) :: others.value, first.issues ++ others.issues⟩
end

end Resolver

end Bindery
