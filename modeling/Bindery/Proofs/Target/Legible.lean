import Bindery.Proofs.Naming
import Bindery.Proofs.OrderedMap
import Bindery.Proofs.Resolution.Misses

/-!
# Types that can be read in their texts

What the readers of all targets share: the types whose texts they read, and the texts of templates
with one argument.
-/

namespace Bindery

open Naming

namespace TypeExpr

/-- Declared names are words of ASCII with scopes. What is asked of the arguments of a function, and
of its promise not to throw, is up to the target. -/
def LegibleNode (s : Spec) (p : List (String × TypeExpr) → Bool → Prop) : TypeExpr → Prop
  | .name path _ _ => s.declares (joinPath path) = true → IdentifierPath (joinPath path)
  | .template .. => True
  | .function arguments _ _ isNoExcept => p arguments isNoExcept

def Legible (s : Spec) (p : List (String × TypeExpr) → Bool → Prop) (t : TypeExpr) : Prop :=
  ∀ u, u.Occurs t → LegibleNode s p u

variable {s : Spec} {p : List (String × TypeExpr) → Bool → Prop}

theorem legible_name {path isConst indirection} :
    Legible s p (.name path isConst indirection) ↔
      (s.declares (joinPath path) = true → IdentifierPath (joinPath path)) :=
  forall_occurs_name

theorem legible_template {path arguments isConst} :
    Legible s p (.template path arguments isConst) ↔ ∀ a ∈ arguments, Legible s p a :=
  forall_occurs_template.trans ⟨And.right, fun h => ⟨trivial, h⟩⟩

theorem legible_function {arguments result isConst isNoExcept} :
    Legible s p (.function arguments result isConst isNoExcept) ↔
      p arguments isNoExcept ∧ (∀ a ∈ arguments, Legible s p a.2) ∧ Legible s p result :=
  forall_occurs_function

end TypeExpr

namespace Resolver

/-- If all templates have one argument, the text of one that resolves is made of the text of its
argument. -/
theorem value_resolve_unary {r : Resolver}
    (h : ∀ entry ∈ r.mapping.templates, entry.2.arity = 1) {path arguments}
    (hlookup : r.mapping.vocabulary.templates.lookup (joinPath path) = some arguments.length)
    (isConst : Bool) :
    ∃ rule a, (joinPath path, rule) ∈ r.mapping.templates ∧ arguments = [a] ∧
      (r.resolve (.template path arguments isConst)).value =
        r.guarded isConst (rule.render [(r.resolve a).value]) := by
  rw [Vocabulary.lookup_templates] at hlookup
  obtain ⟨rule, hrule, hlength⟩ := Option.map_eq_some_iff.1 hlookup
  have hmem := mem_of_lookup_eq_some hrule
  have harity := h _ hmem
  obtain ⟨a, rfl⟩ := List.length_eq_one_iff.1 (hlength.symm.trans harity)
  refine ⟨rule, a, hmem, rfl, ?_⟩
  rw [value_resolve_template, hrule]
  exact congrArg (r.guarded isConst) (if_pos harity.symm)

end Resolver

/-- A spec with a class in a scope. -/
def scopedClassSpec : Spec where
  classes := .ofList [("ns::Foo", {})]

end Bindery
