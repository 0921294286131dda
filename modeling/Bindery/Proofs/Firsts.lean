import Mathlib.Data.List.Basic

/-!
# First occurrences

Lists without repetition, in the order in which another list first has their elements.
-/

namespace Bindery

variable {α : Type} [DecidableEq α]

/-- The elements of a list, each once, in the order in which they first stand there. -/
structure Firsts (all firsts : List α) : Prop where
  mem : ∀ a, a ∈ firsts ↔ a ∈ all
  ordered : firsts.Pairwise fun a b => all.idxOf a < all.idxOf b

namespace Firsts

theorem nil : Firsts ([] : List α) [] where
  mem := fun _ => Iff.rfl
  ordered := .nil

variable {all firsts : List α} (h : Firsts all firsts)

include h

theorem nodup : firsts.Nodup := by
  refine h.ordered.imp fun {a b} hlt heq => ?_
  subst heq
  exact Nat.lt_irrefl _ hlt

/-- An element in front comes first, and is left out of the others. -/
theorem cons (a : α) : Firsts (a :: all) (a :: firsts.filter (· ≠ a)) where
  mem := by
    intro b
    by_cases hb : b = a
    · simp [hb]
    · simp [h.mem, hb]
  ordered := by
    have hne : ∀ b ∈ firsts.filter (· ≠ a), a ≠ b := fun b hb heq => by simp [heq] at hb
    refine List.pairwise_cons.2 ⟨fun b hb => ?_, (h.ordered.filter _).imp_of_mem ?_⟩
    · rw [List.idxOf_cons_self, List.idxOf_cons_ne _ (hne b hb)]
      exact Nat.succ_pos _
    · intro b c hb hc hlt
      rw [List.idxOf_cons_ne _ (hne b hb), List.idxOf_cons_ne _ (hne c hc)]
      exact Nat.succ_lt_succ hlt

/-- What is appended does not change where the others first stand. -/
theorem ordered_append (more : List α) :
    firsts.Pairwise fun a b => (all ++ more).idxOf a < (all ++ more).idxOf b := by
  refine h.ordered.imp_of_mem fun {a b} ha hb hlt => ?_
  rwa [List.idxOf_append_of_mem ((h.mem a).1 ha), List.idxOf_append_of_mem ((h.mem b).1 hb)]

theorem concat_of_mem {a : α} (ha : a ∈ firsts) : Firsts (all ++ [a]) firsts where
  mem := by
    intro b
    rw [List.mem_append, List.mem_singleton, ← h.mem]
    exact (or_iff_left_of_imp fun hb => hb ▸ ha).symm
  ordered := h.ordered_append [a]

theorem concat_of_not_mem {a : α} (ha : a ∉ firsts) : Firsts (all ++ [a]) (firsts ++ [a]) where
  mem := by simp [h.mem]
  ordered := by
    refine List.pairwise_append.2 ⟨h.ordered_append [a], List.pairwise_singleton _ a, ?_⟩
    intro b hb c hc
    obtain rfl : c = a := List.mem_singleton.1 hc
    have hlt : all.idxOf b < all.length := List.idxOf_lt_length_iff.2 ((h.mem b).1 hb)
    rw [List.idxOf_append_of_mem ((h.mem b).1 hb), List.idxOf_append_of_notMem (mt (h.mem c).2 ha)]
    omega

end Firsts

end Bindery
