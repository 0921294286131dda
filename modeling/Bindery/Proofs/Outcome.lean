import Mathlib.Logic.Basic

/-!
# Outcomes

What the success of a step, or of one step after another, says of each.
-/

namespace Bindery

variable {ε α β : Type} {e : ε} {x : Except ε α} {b : β}

@[simp] theorem throw_ne_ok {a : α} : (throw e : Except ε α) ≠ .ok a := by
  simp [throw, throwThe, MonadExceptOf.throw]

theorem bind_eq_ok_iff {f : α → Except ε β} :
    x >>= f = .ok b ↔ ∃ a, x = .ok a ∧ f a = .ok b := by
  cases x <;> simp [bind, Except.bind]

theorem map_eq_ok_iff {f : α → β} : f <$> x = .ok b ↔ ∃ a, x = .ok a ∧ f a = b := by
  cases x <;> simp [Functor.map, Except.map]

/-- What is guarded succeeds only past the guard. -/
theorem guarded_eq_ok_iff {p : Prop} [Decidable p] {f : β → Except ε α} {a : α} :
    (if p then (throw e : Except ε β) >>= f else x) = .ok a ↔ ¬ p ∧ x = .ok a := by
  by_cases hp : p
  · simp [hp, bind_eq_ok_iff]
  · simp [hp]

end Bindery
