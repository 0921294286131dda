import Bindery.Proofs.Spec.TypeExpr
import Bindery.Resolution.Basic

/-!
# What a type becomes, before it is text

A `Shape` is a resolved type as a tree: it tells a reference to a declared entity from a word of the
target, and both from a placeholder. `value_resolve`: the resolver writes the shape of a type, and
nothing else.
-/

namespace Bindery

inductive Shape where
  /-- Refers to the entity of that name. -/
  | declared (name : String)
  | primitive (name : String)
  | placeholder (detail : String)
  | readonly (inner : Shape)
  | annotated (inner : Shape) (modifiers : List String)
  /-- A template of the target with as many arguments as it takes. -/
  | applied (name : String) (arguments : List Shape)
  | function (arguments : List (String × Shape)) (result : Shape)
  deriving Repr

namespace Shape

@[induction_eliminator]
theorem induct {motive : Shape → Prop}
    (declared : ∀ name, motive (.declared name))
    (primitive : ∀ name, motive (.primitive name))
    (placeholder : ∀ detail, motive (.placeholder detail))
    (readonly : ∀ inner, motive inner → motive (.readonly inner))
    (annotated : ∀ inner modifiers, motive inner → motive (.annotated inner modifiers))
    (applied : ∀ name arguments, (∀ a ∈ arguments, motive a) → motive (.applied name arguments))
    (function : ∀ arguments result, (∀ a ∈ arguments, motive a.2) → motive result →
      motive (.function arguments result))
    (x : Shape) : motive x := by
  refine @Shape.rec motive (fun xs => ∀ a ∈ xs, motive a) (fun xs => ∀ a ∈ xs, motive a.2)
    (fun a => motive a.2) declared primitive placeholder readonly annotated applied function
    ?_ ?_ ?_ ?_ ?_ x
  · exact List.forall_mem_nil _
  · intro x xs hx hxs
    exact List.forall_mem_cons.2 ⟨hx, hxs⟩
  · exact List.forall_mem_nil _
  · intro x xs hx hxs
    exact List.forall_mem_cons.2 ⟨hx, hxs⟩
  · intro name x hx
    exact hx

def guarded (isConst : Bool) (x : Shape) : Shape :=
  if isConst then .readonly x else x

def noted (modifiers : List String) (x : Shape) : Shape :=
  if modifiers.isEmpty then x else .annotated x modifiers

end Shape

/-! ## The text of a shape -/

namespace Mapping

mutual
def print (m : Mapping) : Shape → String
  | .declared name => m.declared name
  | .primitive name => (m.primitive? name).getD ""
  | .placeholder detail => m.placeholder detail
  | .readonly inner => m.readonly (m.print inner)
  | .annotated inner modifiers => m.annotate (m.print inner) modifiers
  | .applied name arguments =>
    match m.template? name with
    | none => ""
    | some rule => rule.render (m.printAll arguments)
  | .function arguments result => m.function (m.printArguments arguments) (m.print result)

def printAll (m : Mapping) : List Shape → List String
  | [] => []
  | x :: xs => m.print x :: m.printAll xs

def printArguments (m : Mapping) : List (String × Shape) → List (String × String)
  | [] => []
  | (name, x) :: rest => (m.naming.apply name, m.print x) :: m.printArguments rest
end

theorem printAll_eq_map (m : Mapping) (xs : List Shape) : m.printAll xs = xs.map m.print := by
  induction xs with
  | nil => rfl
  | cons x xs ih => simp [printAll, ih]

theorem printArguments_eq_map (m : Mapping) (arguments : List (String × Shape)) :
    m.printArguments arguments = arguments.map fun a => (m.naming.apply a.1, m.print a.2) := by
  induction arguments with
  | nil => rfl
  | cons a arguments ih => simp [printArguments, ih]

theorem print_guarded (m : Mapping) (isConst : Bool) (x : Shape) :
    m.print (x.guarded isConst) = if isConst then m.readonly (m.print x) else m.print x := by
  cases isConst <;> simp [Shape.guarded, print]

theorem print_noted (m : Mapping) (modifiers : List String) (x : Shape) :
    m.print (x.noted modifiers) =
      if modifiers.isEmpty then m.print x else m.annotate (m.print x) modifiers := by
  cases modifiers <;> simp [Shape.noted, print]

end Mapping

/-! ## The shape of a type -/

namespace TypeExpr

/-- A declared name counts before a primitive of that name. -/
def nameShape (s : Spec) (m : Mapping) (fullName : String) : Shape :=
  if s.declares fullName then .declared fullName
  else if (m.primitive? fullName).isSome then .primitive fullName
  else .placeholder fullName

/-- What stands for a template whose arguments have the shapes `inner`. -/
def templateShape (m : Mapping) (fullName : String) (arguments : List TypeExpr)
    (inner : List Shape) : Shape :=
  match m.template? fullName with
  | none => .placeholder (Resolver.templateDetail fullName arguments)
  | some rule =>
    if arguments.length = rule.arity then .applied fullName inner
    else .placeholder (Resolver.templateDetail fullName arguments)

mutual
def shape (s : Spec) (m : Mapping) : TypeExpr → Shape
  | .name path isConst indirection =>
    ((nameShape s m (joinPath path)).noted indirection.names).guarded isConst
  | .template path arguments isConst =>
    (templateShape m (joinPath path) arguments (shapeAll s m arguments)).guarded isConst
  | .function arguments result isConst isNoExcept =>
    ((Shape.function (shapeArguments s m arguments) (shape s m result)).noted
      (if isNoExcept then ["noexcept"] else [])).guarded isConst

def shapeAll (s : Spec) (m : Mapping) : List TypeExpr → List Shape
  | [] => []
  | t :: ts => shape s m t :: shapeAll s m ts

def shapeArguments (s : Spec) (m : Mapping) : List (String × TypeExpr) → List (String × Shape)
  | [] => []
  | (argument, t) :: rest => (argument, shape s m t) :: shapeArguments s m rest
end

theorem shapeAll_eq_map (s : Spec) (m : Mapping) (ts : List TypeExpr) :
    shapeAll s m ts = ts.map (shape s m) := by
  induction ts with
  | nil => rfl
  | cons t ts ih => simp [shapeAll, ih]

theorem shapeArguments_eq_map (s : Spec) (m : Mapping) (arguments : List (String × TypeExpr)) :
    shapeArguments s m arguments = arguments.map fun a => (a.1, shape s m a.2) := by
  induction arguments with
  | nil => rfl
  | cons a arguments ih => simp [shapeArguments, ih]

end TypeExpr

/-! ## Resolution writes the shape -/

namespace Resolver

variable (r : Resolver)

theorem value_resolveAll (ts : List TypeExpr) :
    (r.resolveAll ts).value = ts.map fun t => (r.resolve t).value := by
  induction ts with
  | nil => rfl
  | cons t ts ih => simp [resolveAll, ih]

theorem value_resolveArguments (arguments : List (String × TypeExpr)) :
    (r.resolveArguments arguments).value =
      arguments.map fun a => (r.mapping.naming.apply a.1, (r.resolve a.2).value) := by
  induction arguments with
  | nil => rfl
  | cons a arguments ih => simp [resolveArguments, ih]

theorem value_resolve_template (path : List String) (arguments : List TypeExpr) (isConst : Bool) :
    (r.resolve (.template path arguments isConst)).value = r.guarded isConst
      (match r.mapping.template? (joinPath path) with
      | none => r.mapping.placeholder (templateDetail (joinPath path) arguments)
      | some rule =>
        if arguments.length = rule.arity then
          rule.render (arguments.map fun a => (r.resolve a).value)
        else r.mapping.placeholder (templateDetail (joinPath path) arguments)) := by
  rw [resolve, ← value_resolveAll]
  cases r.mapping.template? (joinPath path) with
  | none => rfl
  | some rule => by_cases ha : arguments.length = rule.arity <;> simp only [ha, if_true, if_false]

theorem value_resolveName (fullName : String) :
    (r.resolveName fullName).value =
      r.mapping.print (TypeExpr.nameShape r.spec r.mapping fullName) := by
  rw [resolveName, TypeExpr.nameShape]
  by_cases hd : r.spec.declares fullName = true
  · simp [hd, Mapping.print]
  · cases hp : r.mapping.primitive? fullName <;> simp [hd, hp, Mapping.print]

theorem print_templateShape (m : Mapping) (fullName : String) (arguments : List TypeExpr)
    (inner : List Shape) :
    m.print (TypeExpr.templateShape m fullName arguments inner) =
      match m.template? fullName with
      | none => m.placeholder (templateDetail fullName arguments)
      | some rule =>
        if arguments.length = rule.arity then rule.render (inner.map m.print)
        else m.placeholder (templateDetail fullName arguments) := by
  rw [TypeExpr.templateShape]
  cases ht : m.template? fullName with
  | none => simp [Mapping.print]
  | some rule =>
      by_cases ha : arguments.length = rule.arity
      · simp [ha, Mapping.print, ht, Mapping.printAll_eq_map]
      · simp [ha, Mapping.print]

/-- The text of a type is the text of its shape; the location has no part in it. -/
theorem value_resolve (t : TypeExpr) :
    (r.resolve t).value = r.mapping.print (t.shape r.spec r.mapping) := by
  induction t with
  | name path isConst indirection =>
      rw [resolve, TypeExpr.shape, Mapping.print_guarded, Mapping.print_noted,
        ← value_resolveName]
      rfl
  | template path arguments isConst ih =>
      have hinner : (TypeExpr.shapeAll r.spec r.mapping arguments).map r.mapping.print =
          arguments.map fun a => (r.resolve a).value := by
        rw [TypeExpr.shapeAll_eq_map, List.map_map]
        exact List.map_congr_left fun a ha => (ih a ha).symm
      rw [value_resolve_template, TypeExpr.shape, Mapping.print_guarded, print_templateShape,
        hinner]
      rfl
  | function arguments result isConst isNoExcept hargs hresult =>
      have hinputs : r.mapping.printArguments (TypeExpr.shapeArguments r.spec r.mapping arguments) =
          (r.resolveArguments arguments).value := by
        rw [TypeExpr.shapeArguments_eq_map, Mapping.printArguments_eq_map, value_resolveArguments,
          List.map_map]
        refine List.map_congr_left fun a ha => ?_
        rw [hargs a ha]
        rfl
      rw [resolve, TypeExpr.shape, Mapping.print_guarded, Mapping.print_noted, Mapping.print,
        hinputs, ← hresult]
      rfl

theorem value_resolveArguments_eq_print (arguments : List (String × TypeExpr)) :
    (r.resolveArguments arguments).value =
      r.mapping.printArguments (TypeExpr.shapeArguments r.spec r.mapping arguments) := by
  rw [value_resolveArguments, Mapping.printArguments_eq_map, TypeExpr.shapeArguments_eq_map,
    List.map_map]
  exact List.map_congr_left fun a _ => Prod.ext rfl (r.value_resolve a.2)

/-- The place is told in issues only. -/
theorem value_located (location : String) (t : TypeExpr) :
    ((r.located location).resolve t).value = (r.resolve t).value := by
  rw [value_resolve, value_resolve]
  rfl

@[simp] theorem spec_located (location : String) : (r.located location).spec = r.spec := rfl

@[simp] theorem mapping_located (location : String) : (r.located location).mapping = r.mapping :=
  rfl

end Resolver

end Bindery
