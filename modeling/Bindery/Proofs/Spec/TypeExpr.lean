import Bindery.Spec.TypeExpr

/-!
# Type expressions: induction and occurrence
-/

namespace Bindery.TypeExpr

/-- Induction on a type where the types inside a template or a function come as members of its
lists. -/
@[induction_eliminator]
theorem induct {motive : TypeExpr → Prop}
    (name : ∀ path isConst indirection, motive (.name path isConst indirection))
    (template : ∀ path arguments isConst, (∀ a ∈ arguments, motive a) →
      motive (.template path arguments isConst))
    (function : ∀ arguments result isConst isNoExcept, (∀ a ∈ arguments, motive a.2) →
      motive result → motive (.function arguments result isConst isNoExcept))
    (t : TypeExpr) : motive t := by
  refine @TypeExpr.rec motive (fun ts => ∀ a ∈ ts, motive a) (fun args => ∀ a ∈ args, motive a.2)
    (fun a => motive a.2) name template ?_ ?_ ?_ ?_ ?_ ?_ t
  · intro arguments result isConst isNoExcept hargs hresult
    exact function arguments result isConst isNoExcept hargs hresult
  · exact List.forall_mem_nil _
  · intro t ts ht hts
    exact List.forall_mem_cons.2 ⟨ht, hts⟩
  · exact List.forall_mem_nil _
  · intro a args ha hargs
    exact List.forall_mem_cons.2 ⟨ha, hargs⟩
  · intro name t ht
    exact ht

/-! ## Occurrence -/

/-- `u` stands in a type, at any depth. -/
inductive Occurs (u : TypeExpr) : TypeExpr → Prop where
  | self : Occurs u u
  | templateArgument {path arguments isConst a} : a ∈ arguments → Occurs u a →
      Occurs u (.template path arguments isConst)
  | functionArgument {arguments result isConst isNoExcept a} : a ∈ arguments → Occurs u a.2 →
      Occurs u (.function arguments result isConst isNoExcept)
  | functionResult {arguments result isConst isNoExcept} : Occurs u result →
      Occurs u (.function arguments result isConst isNoExcept)

theorem forall_occurs_name {p : TypeExpr → Prop} {path isConst indirection} :
    (∀ u, Occurs u (.name path isConst indirection) → p u) ↔
      p (.name path isConst indirection) := by
  constructor
  · intro h
    exact h _ .self
  · intro h u hu
    cases hu
    exact h

theorem forall_occurs_template {p : TypeExpr → Prop} {path arguments isConst} :
    (∀ u, Occurs u (.template path arguments isConst) → p u) ↔
      p (.template path arguments isConst) ∧ ∀ a ∈ arguments, ∀ u, Occurs u a → p u := by
  constructor
  · intro h
    exact ⟨h _ .self, fun a ha u hu => h u (.templateArgument ha hu)⟩
  · rintro ⟨hself, hargs⟩ u hu
    cases hu with
    | self => exact hself
    | templateArgument ha hu => exact hargs _ ha u hu

theorem forall_occurs_function {p : TypeExpr → Prop} {arguments result isConst isNoExcept} :
    (∀ u, Occurs u (.function arguments result isConst isNoExcept) → p u) ↔
      p (.function arguments result isConst isNoExcept) ∧
        (∀ a ∈ arguments, ∀ u, Occurs u a.2 → p u) ∧ ∀ u, Occurs u result → p u := by
  constructor
  · intro h
    exact ⟨h _ .self, fun a ha u hu => h u (.functionArgument ha hu),
      fun u hu => h u (.functionResult hu)⟩
  · rintro ⟨hself, hargs, hresult⟩ u hu
    cases hu with
    | self => exact hself
    | functionArgument ha hu => exact hargs _ ha u hu
    | functionResult hu => exact hresult u hu

/-- The path of a name or a template; functions have none. -/
def path? : TypeExpr → Option (List String)
  | .name path _ _ => some path
  | .template path _ _ => some path
  | .function .. => none

/-- Every name and every template in a type, at any depth, has some text. -/
def WellNamed (t : TypeExpr) : Prop :=
  ∀ u path, Occurs u t → u.path? = some path → ∃ part ∈ path, part ≠ ""

theorem wellNamed_iff {t : TypeExpr} :
    WellNamed t ↔ ∀ u, Occurs u t → ∀ path, u.path? = some path → ∃ part ∈ path, part ≠ "" :=
  ⟨fun h u hu path => h u path hu, fun h u path hu => h u hu path⟩

theorem wellNamed_name {path isConst indirection} :
    WellNamed (.name path isConst indirection) ↔ ∃ part ∈ path, part ≠ "" := by
  simp only [wellNamed_iff, forall_occurs_name, path?, Option.some.injEq, forall_eq']

theorem wellNamed_template {path arguments isConst} :
    WellNamed (.template path arguments isConst) ↔
      (∃ part ∈ path, part ≠ "") ∧ ∀ a ∈ arguments, WellNamed a := by
  simp only [wellNamed_iff, forall_occurs_template, path?, Option.some.injEq, forall_eq']

theorem wellNamed_function {arguments result isConst isNoExcept} :
    WellNamed (.function arguments result isConst isNoExcept) ↔
      (∀ a ∈ arguments, WellNamed a.2) ∧ WellNamed result := by
  simp only [wellNamed_iff, forall_occurs_function, path?, reduceCtorEq, false_implies,
    implies_true, true_and]

end Bindery.TypeExpr
