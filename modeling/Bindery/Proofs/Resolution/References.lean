import Bindery.Proofs.Resolution.Shape

/-!
# References to declared entities

The shape of a type refers to nothing that the spec does not declare.
-/

namespace Bindery

namespace Shape

mutual
/-- The entities that a shape refers to, as often as it does. -/
def references : Shape → List String
  | .declared name => [name]
  | .primitive _ => []
  | .placeholder _ => []
  | .readonly inner => inner.references
  | .annotated inner _ => inner.references
  | .applied _ arguments => referencesAll arguments
  | .function arguments result => referencesArguments arguments ++ result.references

def referencesAll : List Shape → List String
  | [] => []
  | x :: xs => x.references ++ referencesAll xs

def referencesArguments : List (String × Shape) → List String
  | [] => []
  | (_, x) :: rest => x.references ++ referencesArguments rest
end

theorem referencesAll_eq_flatMap (xs : List Shape) : referencesAll xs = xs.flatMap references := by
  induction xs with
  | nil => rfl
  | cons x xs ih => simp [referencesAll, ih]

theorem referencesArguments_eq_flatMap (arguments : List (String × Shape)) :
    referencesArguments arguments = arguments.flatMap fun a => a.2.references := by
  induction arguments with
  | nil => rfl
  | cons a arguments ih => simp [referencesArguments, ih]

theorem references_guarded (isConst : Bool) (x : Shape) :
    (x.guarded isConst).references = x.references := by
  cases isConst <;> simp [guarded, references]

theorem references_noted (modifiers : List String) (x : Shape) :
    (x.noted modifiers).references = x.references := by
  cases modifiers <;> simp [noted, references]

end Shape

namespace TypeExpr

variable (s : Spec) (m : Mapping)

theorem references_nameShape (fullName : String) :
    (nameShape s m fullName).references =
      if s.declares fullName then [fullName] else [] := by
  rw [nameShape]
  split
  · rfl
  · split <;> rfl

/-- A placeholder shows its arguments without a reference to them. -/
theorem references_templateShape_subset (fullName : String) (arguments : List TypeExpr)
    (inner : List Shape) :
    (templateShape m fullName arguments inner).references ⊆ inner.flatMap Shape.references := by
  rw [templateShape, ← Shape.referencesAll_eq_flatMap]
  cases m.template? fullName with
  | none => exact List.nil_subset _
  | some rule =>
      by_cases ha : arguments.length = rule.arity
      · simp [ha, Shape.references]
      · simp [ha, Shape.references]

theorem references_shape_subset (t : TypeExpr) : (t.shape s m).references ⊆ s.declaredNames := by
  induction t with
  | name path isConst indirection =>
      rw [shape, Shape.references_guarded, Shape.references_noted, references_nameShape]
      by_cases hd : s.declares (joinPath path) = true
      · rw [if_pos hd]
        exact List.cons_subset.2 ⟨by simpa [Spec.declares] using hd, List.nil_subset _⟩
      · rw [if_neg hd]
        exact List.nil_subset _
  | template path arguments isConst ih =>
      rw [shape, Shape.references_guarded, shapeAll_eq_map]
      intro n hn
      have hn := references_templateShape_subset m _ _ _ hn
      rw [List.flatMap_map] at hn
      obtain ⟨a, ha, hn⟩ := List.mem_flatMap.1 hn
      exact ih a ha hn
  | function arguments result isConst isNoExcept hargs hresult =>
      rw [shape, Shape.references_guarded, Shape.references_noted, Shape.references,
        Shape.referencesArguments_eq_flatMap, shapeArguments_eq_map, List.flatMap_map]
      intro n hn
      obtain hn | hn := List.mem_append.1 hn
      · obtain ⟨a, ha, hn⟩ := List.mem_flatMap.1 hn
        exact hargs a ha hn
      · exact hresult hn

end TypeExpr

end Bindery
