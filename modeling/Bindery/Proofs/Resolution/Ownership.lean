import Bindery.Proofs.Resolution.Session
import Bindery.Target.Registry

/-!
# Shared ownership does not show

Every target writes `std::shared_ptr` as what it holds. `run_resolve_unshared`: a session does with
a type what it does with the type where no such holder is left, wherever it stands. A template that
a target does not write shows its arguments as they are, so nothing changes in there.
-/

namespace Bindery

/-- What holds a value together with others. -/
def sharedHolder : String := "std::shared_ptr"

namespace TypeExpr

/-- A template, or what it holds if it is a holder of one type and not constant. -/
def released (path : List String) (arguments : List TypeExpr) (isConst : Bool) : TypeExpr :=
  match arguments, isConst with
  | [t], false => if joinPath path = sharedHolder then t else .template path [t] false
  | arguments, isConst => .template path arguments isConst

mutual
/-- The type without its holders, except in templates that the words do not have, or not with so
many arguments. -/
def unshared (v : Vocabulary) : TypeExpr → TypeExpr
  | .name path isConst indirection => .name path isConst indirection
  | .template path arguments isConst =>
    if v.templates.lookup (joinPath path) = some arguments.length then
      released path (unsharedAll v arguments) isConst
    else .template path arguments isConst
  | .function arguments result isConst isNoExcept =>
    .function (unsharedArguments v arguments) (unshared v result) isConst isNoExcept

def unsharedAll (v : Vocabulary) : List TypeExpr → List TypeExpr
  | [] => []
  | t :: ts => unshared v t :: unsharedAll v ts

def unsharedArguments (v : Vocabulary) : List (String × TypeExpr) → List (String × TypeExpr)
  | [] => []
  | (argument, t) :: rest => (argument, unshared v t) :: unsharedArguments v rest
end

theorem unsharedAll_eq_map (v : Vocabulary) (ts : List TypeExpr) :
    unsharedAll v ts = ts.map (unshared v) := by
  induction ts with
  | nil => rfl
  | cons t ts ih => simp [unsharedAll, ih]

theorem unsharedArguments_eq_map (v : Vocabulary) (arguments : List (String × TypeExpr)) :
    unsharedArguments v arguments = arguments.map fun a => (a.1, unshared v a.2) := by
  induction arguments with
  | nil => rfl
  | cons a arguments ih => simp [unsharedArguments, ih]

/-! ## No holder is left -/

/-- Holds one type and is not constant. -/
def IsHolder (t : TypeExpr) : Prop :=
  ∃ path inner, t = .template path [inner] false ∧ joinPath path = sharedHolder

/-- A template is released, or it is none to release. -/
theorem released_cases (path : List String) (arguments : List TypeExpr) (isConst : Bool) :
    (∃ t, arguments = [t] ∧ isConst = false ∧ joinPath path = sharedHolder ∧
      released path arguments isConst = t) ∨
    (¬ IsHolder (.template path arguments isConst) ∧
      released path arguments isConst = .template path arguments isConst) := by
  rw [released.eq_def]
  split
  · split
    · exact .inl ⟨_, rfl, rfl, ‹_›, rfl⟩
    · refine .inr ⟨?_, rfl⟩
      rintro ⟨path', inner, heq, hname⟩
      cases heq
      contradiction
  · refine .inr ⟨?_, rfl⟩
    rintro ⟨path', inner, heq, -⟩
    cases heq
    rename_i hother
    exact hother _ rfl rfl

section

variable {v : Vocabulary} (hshared : v.templates.lookup sharedHolder = some 1)
include hshared

theorem not_isHolder_of_written_unshared {t u : TypeExpr} (h : Written v u (t.unshared v)) :
    ¬ IsHolder u := by
  induction t with
  | name path isConst indirection =>
      cases h
      rintro ⟨_, _, heq, -⟩
      cases heq
  | template path arguments isConst ih =>
      rw [unshared] at h
      split at h
      · rw [unsharedAll_eq_map] at h
        obtain ⟨t, hone, -, -, heq⟩ | ⟨hnot, heq⟩ :=
          released_cases path (arguments.map (unshared v)) isConst
        · rw [heq] at h
          obtain ⟨a, ha, rfl⟩ := List.mem_map.1 (hone ▸ List.mem_singleton_self t)
          exact ih a ha h
        · rw [heq] at h
          cases h with
          | self => exact hnot
          | templateArgument _ hmem hu =>
              obtain ⟨a, ha, rfl⟩ := List.mem_map.1 hmem
              exact ih a ha hu
      · rename_i hlookup
        -- an unchanged template is no holder: those are words with one argument
        cases h with
        | self =>
            rintro ⟨_, inner, heq, hname⟩
            cases heq
            exact hlookup (hname ▸ hshared)
        | templateArgument hlookup' _ _ => exact absurd hlookup' hlookup
  | function arguments result isConst isNoExcept hargs hresult =>
      rw [unshared, unsharedArguments_eq_map] at h
      cases h with
      | self =>
          rintro ⟨_, _, heq, -⟩
          cases heq
      | functionArgument hmem hu =>
          obtain ⟨a, ha, rfl⟩ := List.mem_map.1 hmem
          exact hargs a ha hu
      | functionResult hu => exact hresult hu

end

end TypeExpr

/-! ## Resolution -/

namespace Resolver

variable (r : Resolver)

/-- A template that the target writes comes to what its rule makes of its arguments. -/
theorem resolve_template_of_lookup {path : List String} {arguments : List TypeExpr} {isConst : Bool}
    {rule : TemplateRule} (hrule : r.mapping.template? (joinPath path) = some rule)
    (hlength : arguments.length = rule.arity) :
    r.resolve (.template path arguments isConst) =
      ⟨r.guarded isConst (rule.render (arguments.map fun a => (r.resolve a).value)),
        arguments.flatMap fun a => (r.resolve a).issues⟩ := by
  rw [resolve, hrule]
  simp only [hlength, if_true, value_resolveAll, issues_resolveAll]

/-- In such a template, arguments may be replaced by others that come to the same. -/
theorem resolve_template_map {path : List String} {arguments : List TypeExpr} {isConst : Bool}
    {rule : TemplateRule} (hrule : r.mapping.template? (joinPath path) = some rule)
    (hlength : arguments.length = rule.arity) {f : TypeExpr → TypeExpr}
    (hf : ∀ a ∈ arguments, r.resolve (f a) = r.resolve a) :
    r.resolve (.template path (arguments.map f) isConst) =
      r.resolve (.template path arguments isConst) := by
  have htexts : (arguments.map f).map (fun a => (r.resolve a).value) =
      arguments.map fun a => (r.resolve a).value := by
    rw [List.map_map]
    exact List.map_congr_left fun a ha => congrArg Resolved.value (hf a ha)
  have hissues : (arguments.map f).flatMap (fun a => (r.resolve a).issues) =
      arguments.flatMap fun a => (r.resolve a).issues := by
    rw [List.flatMap_map]
    exact List.flatMap_congr fun a ha => congrArg Resolved.issues (hf a ha)
  rw [r.resolve_template_of_lookup hrule (by rw [List.length_map, hlength]),
    r.resolve_template_of_lookup hrule hlength, htexts, hissues]

theorem resolveArguments_map {arguments : List (String × TypeExpr)} {f : TypeExpr → TypeExpr}
    (hf : ∀ a ∈ arguments, r.resolve (f a.2) = r.resolve a.2) :
    r.resolveArguments (arguments.map fun a => (a.1, f a.2)) = r.resolveArguments arguments := by
  induction arguments with
  | nil => rfl
  | cons a arguments ih =>
      obtain ⟨ha, hf⟩ := List.forall_mem_cons.1 hf
      rw [List.map_cons, resolveArguments, resolveArguments, ha, ih hf]

section

variable (hshared : r.mapping.template? sharedHolder = some (Mapping.unary id))
include hshared

/-- A holder comes to what it holds. -/
theorem resolve_released (path : List String) (arguments : List TypeExpr) (isConst : Bool) :
    r.resolve (TypeExpr.released path arguments isConst) =
      r.resolve (.template path arguments isConst) := by
  obtain ⟨t, rfl, rfl, hname, heq⟩ | ⟨-, heq⟩ := TypeExpr.released_cases path arguments isConst
  · rw [heq, r.resolve_template_of_lookup (hname ▸ hshared) rfl]
    simp [guarded, Mapping.unary]
  · rw [heq]

theorem resolve_unshared (t : TypeExpr) :
    r.resolve (t.unshared r.mapping.vocabulary) = r.resolve t := by
  induction t with
  | name path isConst indirection => rfl
  | template path arguments isConst ih =>
      rw [TypeExpr.unshared]
      split
      · rename_i hlookup
        rw [Vocabulary.lookup_templates, Option.map_eq_some_iff] at hlookup
        obtain ⟨rule, hrule, harity⟩ := hlookup
        rw [TypeExpr.unsharedAll_eq_map, r.resolve_released hshared,
          r.resolve_template_map hrule harity.symm ih]
      · rfl
  | function arguments result isConst isNoExcept hargs hresult =>
      rw [TypeExpr.unshared, TypeExpr.unsharedArguments_eq_map, resolve, resolve, hresult,
        r.resolveArguments_map hargs]

end

end Resolver

namespace Session

/-- In no session of a target do holders show: a type comes to the text and the issues of the type
without them, where none is left that the target would write. -/
theorem run_resolve_unshared (target : TargetId) (s : Spec) (location : String)
    (issues : List Issue) (t : TypeExpr) :
    let r : Resolver := { spec := s, mapping := (Target.ofId target).mapping, location }
    let bare := t.unshared r.mapping.vocabulary
    (resolve bare).run ⟨r, issues⟩ = (resolve t).run ⟨r, issues⟩ ∧
      r.resolve bare = r.resolve t ∧
      ∀ u, TypeExpr.Written r.mapping.vocabulary u bare → ¬ u.IsHolder := by
  intro r bare
  have hshared : r.mapping.template? sharedHolder = some (Mapping.unary id) := by
    cases target <;> rfl
  have hresolve : r.resolve bare = r.resolve t := r.resolve_unshared hshared t
  refine ⟨?_, hresolve, fun u hu => ?_⟩
  · rw [run_resolve bare, run_resolve t, hresolve]
  · refine TypeExpr.not_isHolder_of_written_unshared ?_ hu
    rw [Vocabulary.lookup_templates, hshared]
    rfl

end Session

end Bindery
