import Bindery.Proofs.Resolution.Shape
import Mathlib.Data.List.Basic

/-!
# What a type misses

The issues of a type, from the words that a target has and nothing else of it: neither how it writes
types, nor in what state the resolver is. `issues_resolve`: these are the issues of the resolver.
-/

namespace Bindery

/-- The words that a target has: primitives, and templates with the number of their arguments. -/
structure Vocabulary where
  primitives : List String
  templates : List (String × Nat)
  deriving DecidableEq, Repr

def Mapping.vocabulary (m : Mapping) : Vocabulary where
  primitives := m.primitives.map Prod.fst
  templates := m.templates.map fun t => (t.1, t.2.arity)

namespace Vocabulary

theorem mem_primitives {m : Mapping} {fullName : String} :
    fullName ∈ m.vocabulary.primitives ↔ (m.primitive? fullName).isSome = true := by
  simp [Mapping.vocabulary, Mapping.primitive?, List.lookup_isSome_iff]

theorem lookup_templates (m : Mapping) (fullName : String) :
    m.vocabulary.templates.lookup fullName = (m.template? fullName).map TemplateRule.arity := by
  rw [Mapping.vocabulary, Mapping.template?]
  induction m.templates with
  | nil => rfl
  | cons t ts ih =>
      rw [List.map_cons, List.lookup_cons, List.lookup_cons, ih]
      cases fullName == t.1 <;> rfl

end Vocabulary

/-! ## What is written with a type -/

namespace TypeExpr

/-- `u` is written with a type: it stands in it, but not below a template that has no text of its
own, be it for its name or for the number of its arguments. -/
inductive Written (v : Vocabulary) (u : TypeExpr) : TypeExpr → Prop where
  | self : Written v u u
  | templateArgument {path arguments isConst a} :
      v.templates.lookup (joinPath path) = some arguments.length → a ∈ arguments → Written v u a →
      Written v u (.template path arguments isConst)
  | functionArgument {arguments result isConst isNoExcept a} : a ∈ arguments → Written v u a.2 →
      Written v u (.function arguments result isConst isNoExcept)
  | functionResult {arguments result isConst isNoExcept} : Written v u result →
      Written v u (.function arguments result isConst isNoExcept)

/-! ## Misses -/

/-- A name that is neither declared nor a word of the target. -/
def nameMisses (s : Spec) (v : Vocabulary) (location fullName : String) : List Issue :=
  if fullName ∈ s.declaredNames ∨ fullName ∈ v.primitives then []
  else if fullName ∈ s.primitives then [⟨.unmappablePrimitive, fullName, location, none⟩]
  else [⟨.unresolvedIdentifier, fullName, location, none⟩]

/-- A template that is no word of the target, whatever its arguments; or, behind what its arguments
miss, one that does not take so many. -/
def templateMisses (v : Vocabulary) (location fullName : String) (count : Nat)
    (inner : List Issue) : List Issue :=
  match v.templates.lookup fullName with
  | none => [⟨.unmappableTemplate, fullName, location, none⟩]
  | some arity =>
    inner ++ if count = arity then []
      else [⟨.unmappableTemplate, fullName, location, some (Resolver.arityDetail arity count)⟩]

mutual
/-- The misses of a type at a location, from left to right; modifiers add none. -/
def misses (s : Spec) (v : Vocabulary) (location : String) : TypeExpr → List Issue
  | .name path _ _ => nameMisses s v location (joinPath path)
  | .template path arguments _ =>
    templateMisses v location (joinPath path) arguments.length (missesAll s v location arguments)
  | .function arguments result _ _ =>
    missesArguments s v location arguments ++ misses s v location result

def missesAll (s : Spec) (v : Vocabulary) (location : String) : List TypeExpr → List Issue
  | [] => []
  | t :: ts => misses s v location t ++ missesAll s v location ts

def missesArguments (s : Spec) (v : Vocabulary) (location : String) :
    List (String × TypeExpr) → List Issue
  | [] => []
  | (_, t) :: rest => misses s v location t ++ missesArguments s v location rest
end

theorem missesAll_eq_flatMap (s : Spec) (v : Vocabulary) (location : String) (ts : List TypeExpr) :
    missesAll s v location ts = ts.flatMap (misses s v location) := by
  induction ts with
  | nil => rfl
  | cons t ts ih => simp [missesAll, ih]

theorem missesArguments_eq_flatMap (s : Spec) (v : Vocabulary) (location : String)
    (arguments : List (String × TypeExpr)) :
    missesArguments s v location arguments =
      arguments.flatMap fun a => misses s v location a.2 := by
  induction arguments with
  | nil => rfl
  | cons a arguments ih => simp [missesArguments, ih]

/-! ## Types that miss nothing -/

section

variable {s : Spec} {v : Vocabulary} {location : String}

theorem nameMisses_eq_nil_iff {fullName : String} :
    nameMisses s v location fullName = [] ↔
      fullName ∈ s.declaredNames ∨ fullName ∈ v.primitives := by
  rw [nameMisses]
  split
  · simp [*]
  · split <;> simp [*]

theorem templateMisses_eq_nil_iff {fullName : String} {count : Nat} {inner : List Issue} :
    templateMisses v location fullName count inner = [] ↔
      v.templates.lookup fullName = some count ∧ inner = [] := by
  rw [templateMisses]
  cases v.templates.lookup fullName with
  | none => simp
  | some arity =>
      by_cases h : count = arity
      · simp [h]
      · simp [h, Ne.symm h]

theorem misses_template_eq_nil_iff {path arguments isConst} :
    misses s v location (.template path arguments isConst) = [] ↔
      v.templates.lookup (joinPath path) = some arguments.length ∧
        ∀ a ∈ arguments, misses s v location a = [] := by
  rw [misses, templateMisses_eq_nil_iff, missesAll_eq_flatMap, List.flatMap_eq_nil_iff]

theorem misses_function_eq_nil_iff {arguments result isConst isNoExcept} :
    misses s v location (.function arguments result isConst isNoExcept) = [] ↔
      (∀ a ∈ arguments, misses s v location a.2 = []) ∧ misses s v location result = [] := by
  rw [misses, missesArguments_eq_flatMap, List.append_eq_nil_iff, List.flatMap_eq_nil_iff]

end

end TypeExpr

/-! ## The issues of the resolver -/

namespace Resolver

variable (r : Resolver)

theorem issues_resolveAll (ts : List TypeExpr) :
    (r.resolveAll ts).issues = ts.flatMap fun t => (r.resolve t).issues := by
  induction ts with
  | nil => rfl
  | cons t ts ih => simp [resolveAll, ih]

theorem issues_resolveArguments (arguments : List (String × TypeExpr)) :
    (r.resolveArguments arguments).issues =
      arguments.flatMap fun a => (r.resolve a.2).issues := by
  induction arguments with
  | nil => rfl
  | cons a arguments ih => simp [resolveArguments, ih]

theorem issues_resolveName (fullName : String) :
    (r.resolveName fullName).issues =
      TypeExpr.nameMisses r.spec r.mapping.vocabulary r.location fullName := by
  rw [resolveName, TypeExpr.nameMisses]
  by_cases hd : fullName ∈ r.spec.declaredNames
  · simp [Spec.declares, hd]
  · cases hp : r.mapping.primitive? fullName with
    | some text => simp [Spec.declares, Vocabulary.mem_primitives, hd, hp]
    | none =>
        by_cases hs : fullName ∈ r.spec.primitives
        · simp [Spec.declares, Spec.isPrimitive, Vocabulary.mem_primitives, hd, hp, hs]
        · simp [Spec.declares, Spec.isPrimitive, Vocabulary.mem_primitives, hd, hp, hs]

/-- The issues of a type are what it misses at the location. -/
theorem issues_resolve (t : TypeExpr) :
    (r.resolve t).issues = t.misses r.spec r.mapping.vocabulary r.location := by
  induction t with
  | name path isConst indirection => exact r.issues_resolveName (joinPath path)
  | template path arguments isConst ih =>
      have hinner : (r.resolveAll arguments).issues =
          TypeExpr.missesAll r.spec r.mapping.vocabulary r.location arguments := by
        rw [issues_resolveAll, TypeExpr.missesAll_eq_flatMap]
        exact List.flatMap_congr ih
      rw [resolve, TypeExpr.misses, TypeExpr.templateMisses, Vocabulary.lookup_templates]
      cases r.mapping.template? (joinPath path) with
      | none => rfl
      | some rule =>
          by_cases ha : arguments.length = rule.arity
          · simp [ha, hinner]
          · simp [ha, hinner]
  | function arguments result isConst isNoExcept hargs hresult =>
      rw [resolve, TypeExpr.misses, issues_resolveArguments, TypeExpr.missesArguments_eq_flatMap,
        ← hresult]
      exact congrArg (· ++ _) (List.flatMap_congr hargs)

end Resolver

end Bindery
