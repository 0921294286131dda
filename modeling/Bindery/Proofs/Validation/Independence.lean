import Bindery.Proofs.Validation.Collisions
import Bindery.Proofs.Validation.Soundness

/-!
# What validation finds for every target

`filter_validate`: targets disagree only about members whose names become one. Two runs of each
check are compared, as reports of members stand between the others.
-/

namespace Bindery

/-- Two names of an entity become one, or two arguments of a method. -/
def Violation.isMemberCollision : Violation → Bool
  | .nameCollision scope .. => scope ≠ "top-level declarations"
  | _ => false

namespace Validation

/-- The same violations in the same order, apart from members whose names become one. -/
def Agree (vs ws : List Violation) : Prop :=
  vs.filter (fun v => !v.isMemberCollision) = ws.filter (fun v => !v.isMemberCollision)

theorem Agree.refl (vs : List Violation) : Agree vs vs := rfl

theorem Agree.append {vs vs' ws ws' : List Violation} (hvs : Agree vs vs') (hws : Agree ws ws') :
    Agree (vs ++ ws) (vs' ++ ws') := by
  unfold Agree
  rw [List.filter_append, List.filter_append, hvs, hws]

theorem agree_flatMap {α : Type} {xs : List α} {f g : α → List Violation}
    (h : ∀ x ∈ xs, Agree (f x) (g x)) : Agree (xs.flatMap f) (xs.flatMap g) := by
  induction xs with
  | nil => exact Agree.refl []
  | cons x xs ih =>
      simp only [List.flatMap_cons]
      exact (h x List.mem_cons_self).append (ih fun y hy => h y (List.mem_cons_of_mem x hy))

/-! ## Names in a scope -/

theorem isMemberCollision_of_mem_collisions {scope : String} {render : String → String}
    {names : List String} {v : Violation} (hscope : scope ≠ "top-level declarations")
    (h : v ∈ collisions scope render names) : v.isMemberCollision = true := by
  rw [collisions_eq_filterMap] at h
  obtain ⟨name, -, hname⟩ := List.mem_filterMap.1 h
  obtain ⟨first, -, hfirst⟩ := Option.bind_eq_some_iff.1 hname
  split_ifs at hfirst
  cases hfirst
  exact decide_eq_true hscope

/-- Nothing is left of the names in such a scope, whatever they become. -/
theorem agree_collisions {scope : String} (hscope : scope ≠ "top-level declarations")
    (render render' : String → String) (names : List String) :
    Agree (collisions scope render names) (collisions scope render' names) := by
  have hnone : ∀ render : String → String,
      (collisions scope render names).filter (fun v => !v.isMemberCollision) = [] := by
    intro render
    rw [List.filter_eq_nil_iff]
    intro v hv
    simp [isMemberCollision_of_mem_collisions hscope hv]
  unfold Agree
  rw [hnone render, hnone render']

/-- A scope is told from the top level by its first character. -/
theorem ne_topLevel_of_head {scope : String} (h : scope.toList.head? ≠ some 't') :
    scope ≠ "top-level declarations" := by
  rintro rfl
  exact h rfl

/-! ## The checks of entities -/

section

variable (r₁ r₂ : IdentifierRules) (name : String)

theorem agree_ofEnumeration (e : Enumeration) :
    Agree (ofEnumeration r₁ name e) (ofEnumeration r₂ name e) := by
  refine (agree_collisions (ne_topLevel_of_head ?_) _ _ _).append (Agree.refl _)
  simp [toString]

theorem agree_ofRecord (s : Spec) (r : Record) :
    Agree (ofRecord s r₁ name r) (ofRecord s r₂ name r) := by
  refine (Agree.refl _).append (agree_collisions (ne_topLevel_of_head ?_) _ _ _)
  simp [toString]

theorem agree_ofSignature (location : String) (sig : Signature) :
    Agree (ofSignature r₁ location sig) (ofSignature r₂ location sig) := by
  refine (Agree.refl _).append (agree_collisions (ne_topLevel_of_head ?_) _ _ _)
  simp [toString]

theorem agree_ofMethods (scope : String) (table : MethodTable) :
    Agree (ofMethods r₁ scope table) (ofMethods r₂ scope table) :=
  agree_flatMap fun _ _ => agree_flatMap fun sig _ => agree_ofSignature r₁ r₂ _ sig

theorem agree_ofClass (c : Class) : Agree (ofClass r₁ name c) (ofClass r₂ name c) := by
  refine ((((Agree.refl _).append (agree_ofMethods r₁ r₂ _ _)).append
    (agree_ofMethods r₁ r₂ _ _)).append ?_).append ?_
  · exact agree_collisions (ne_topLevel_of_head (by simp [toString])) _ _ _
  · exact agree_collisions (ne_topLevel_of_head (by simp [toString])) _ _ _

theorem agree_ofInterface (i : Interface) :
    Agree (ofInterface r₁ name i) (ofInterface r₂ name i) := by
  refine (agree_ofMethods r₁ r₂ _ _).append (agree_collisions (ne_topLevel_of_head ?_) _ _ _)
  simp [toString]

end

end Validation

/-! ## The spec -/

open Validation

theorem Spec.filter_validate (s : Spec) (r₁ r₂ : IdentifierRules) :
    (s.validate r₁).filter (fun v => !v.isMemberCollision) =
      (s.validate r₂).filter (fun v => !v.isMemberCollision) := by
  have henumerations : Agree
      (s.enumerations.entries.flatMap fun entry => ofEnumeration r₁ entry.1 entry.2)
      (s.enumerations.entries.flatMap fun entry => ofEnumeration r₂ entry.1 entry.2) :=
    agree_flatMap fun entry _ => agree_ofEnumeration r₁ r₂ entry.1 entry.2
  have hrecords : Agree
      (s.records.entries.flatMap fun entry => ofRecord s r₁ entry.1 entry.2)
      (s.records.entries.flatMap fun entry => ofRecord s r₂ entry.1 entry.2) :=
    agree_flatMap fun entry _ => agree_ofRecord r₁ r₂ entry.1 s entry.2
  have hclasses : Agree
      (s.classes.entries.flatMap fun entry => ofClass r₁ entry.1 entry.2)
      (s.classes.entries.flatMap fun entry => ofClass r₂ entry.1 entry.2) :=
    agree_flatMap fun entry _ => agree_ofClass r₁ r₂ entry.1 entry.2
  have hinterfaces : Agree
      (s.interfaces.entries.flatMap fun entry => ofInterface r₁ entry.1 entry.2)
      (s.interfaces.entries.flatMap fun entry => ofInterface r₂ entry.1 entry.2) :=
    agree_flatMap fun entry _ => agree_ofInterface r₁ r₂ entry.1 entry.2
  exact (((((Agree.refl (ofDeclarations s)).append henumerations).append hrecords).append
    hclasses).append hinterfaces).append (Agree.refl _)

end Bindery
