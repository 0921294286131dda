import Bindery.Proofs.Resolution.Misses
import Mathlib.Algebra.GroupWithZero.Nat
import Mathlib.Data.List.Basic

/-!
# Placeholders that the text of a type shows

A template with the wrong number of arguments shows one placeholder, however many its arguments
would have shown. `placeholders_eq_length_misses_iff`: so a type shows all that it misses exactly if
no arguments are dropped that miss something.
-/

namespace Bindery.TypeExpr

/-- The placeholders of a template, where its arguments show `inner` of them. -/
def templatePlaceholders (v : Vocabulary) (fullName : String) (count inner : Nat) : Nat :=
  match v.templates.lookup fullName with
  | none => 1
  | some arity => if count = arity then inner else 1

mutual
def placeholders (s : Spec) (v : Vocabulary) : TypeExpr → Nat
  | .name path _ _ => (nameMisses s v "" (joinPath path)).length
  | .template path arguments _ =>
    templatePlaceholders v (joinPath path) arguments.length (placeholdersAll s v arguments)
  | .function arguments result _ _ =>
    placeholdersArguments s v arguments + placeholders s v result

def placeholdersAll (s : Spec) (v : Vocabulary) : List TypeExpr → Nat
  | [] => 0
  | t :: ts => placeholders s v t + placeholdersAll s v ts

def placeholdersArguments (s : Spec) (v : Vocabulary) : List (String × TypeExpr) → Nat
  | [] => 0
  | (_, t) :: rest => placeholders s v t + placeholdersArguments s v rest
end

/-- `u` is resolved with a type: it stands in it, but not below a template that is no word. -/
inductive Reaches (v : Vocabulary) (u : TypeExpr) : TypeExpr → Prop where
  | self : Reaches v u u
  | templateArgument {path arguments isConst a} :
      (v.templates.lookup (joinPath path)).isSome = true → a ∈ arguments → Reaches v u a →
      Reaches v u (.template path arguments isConst)
  | functionArgument {arguments result isConst isNoExcept a} : a ∈ arguments → Reaches v u a.2 →
      Reaches v u (.function arguments result isConst isNoExcept)
  | functionResult {arguments result isConst isNoExcept} : Reaches v u result →
      Reaches v u (.function arguments result isConst isNoExcept)

/-- Where a template that is a word has the wrong number of arguments, they miss nothing. -/
def KeepsPlaceholders (s : Spec) (v : Vocabulary) (t : TypeExpr) : Prop :=
  ∀ path arguments isConst arity, Reaches v (.template path arguments isConst) t →
    v.templates.lookup (joinPath path) = some arity → arguments.length ≠ arity →
    ∀ a ∈ arguments, ∀ location, a.misses s v location = []

variable {s : Spec} {v : Vocabulary}

theorem placeholdersAll_eq_sum (ts : List TypeExpr) :
    placeholdersAll s v ts = (ts.map (placeholders s v)).sum := by
  induction ts with
  | nil => rfl
  | cons t ts ih => simp [placeholdersAll, ih]

theorem placeholdersArguments_eq_sum (arguments : List (String × TypeExpr)) :
    placeholdersArguments s v arguments =
      (arguments.map fun a => placeholders s v a.2).sum := by
  induction arguments with
  | nil => rfl
  | cons a arguments ih => simp [placeholdersArguments, ih]

/-! ## Places do not matter -/

theorem length_nameMisses (location fullName : String) :
    (nameMisses s v location fullName).length = (nameMisses s v "" fullName).length := by
  unfold nameMisses
  split
  · rfl
  · split <;> rfl

theorem length_templateMisses (location fullName : String) (count : Nat) (inner : List Issue) :
    (templateMisses v location fullName count inner).length =
      match v.templates.lookup fullName with
      | none => 1
      | some arity => inner.length + if count = arity then 0 else 1 := by
  unfold templateMisses
  cases v.templates.lookup fullName with
  | none => rfl
  | some arity => by_cases h : count = arity <;> simp [h]

theorem length_missesAll (location : String) (ts : List TypeExpr) :
    (missesAll s v location ts).length = (ts.map fun t => (misses s v location t).length).sum := by
  rw [missesAll_eq_flatMap, List.length_flatMap]

theorem length_missesArguments (location : String) (arguments : List (String × TypeExpr)) :
    (missesArguments s v location arguments).length =
      (arguments.map fun a => (misses s v location a.2).length).sum := by
  rw [missesArguments_eq_flatMap, List.length_flatMap]

theorem length_misses (location : String) (t : TypeExpr) :
    (t.misses s v location).length = (t.misses s v "").length := by
  induction t with
  | name path isConst indirection => exact length_nameMisses location (joinPath path)
  | template path arguments isConst ih =>
      have hinner : (missesAll s v location arguments).length =
          (missesAll s v "" arguments).length := by
        rw [length_missesAll, length_missesAll]
        exact congrArg List.sum (List.map_congr_left ih)
      rw [misses, misses, length_templateMisses, length_templateMisses, hinner]
  | function arguments result isConst isNoExcept hargs hresult =>
      rw [misses, misses, List.length_append, List.length_append, length_missesArguments,
        length_missesArguments, hresult]
      exact congrArg (· + _) (congrArg List.sum (List.map_congr_left hargs))

theorem misses_eq_nil_iff (location : String) (t : TypeExpr) :
    t.misses s v location = [] ↔ t.misses s v "" = [] := by
  rw [← List.length_eq_zero_iff, ← List.length_eq_zero_iff, length_misses]

/-! ## What keeps its placeholders -/

theorem keepsPlaceholders_name {path isConst indirection} :
    KeepsPlaceholders s v (.name path isConst indirection) := by
  intro path arguments isConst arity hreach
  cases hreach

theorem keepsPlaceholders_template_of_none {path arguments isConst}
    (h : v.templates.lookup (joinPath path) = none) :
    KeepsPlaceholders s v (.template path arguments isConst) := by
  intro path' arguments' isConst' arity hreach hlookup
  cases hreach with
  | self => simp [h] at hlookup
  | templateArgument hsome => simp [h] at hsome

theorem keepsPlaceholders_template_of_some {path arguments isConst arity}
    (h : v.templates.lookup (joinPath path) = some arity) :
    KeepsPlaceholders s v (.template path arguments isConst) ↔
      (arguments.length ≠ arity → ∀ a ∈ arguments, a.misses s v "" = []) ∧
      ∀ a ∈ arguments, KeepsPlaceholders s v a := by
  constructor
  · intro hkeeps
    refine ⟨fun hne a ha => hkeeps _ _ _ _ .self h hne a ha "", fun a ha => ?_⟩
    intro path' arguments' isConst' arity' hreach
    exact hkeeps _ _ _ _ (.templateArgument (by simp [h]) ha hreach)
  · rintro ⟨hself, hargs⟩ path' arguments' isConst' arity' hreach hlookup hne
    cases hreach with
    | self =>
        obtain rfl : arity = arity' := by simpa [h] using hlookup
        exact fun a ha location => (misses_eq_nil_iff location a).2 (hself hne a ha)
    | templateArgument _ ha hreach => exact hargs _ ha _ _ _ _ hreach hlookup hne

theorem keepsPlaceholders_function {arguments result isConst isNoExcept} :
    KeepsPlaceholders s v (.function arguments result isConst isNoExcept) ↔
      (∀ a ∈ arguments, KeepsPlaceholders s v a.2) ∧ KeepsPlaceholders s v result := by
  constructor
  · intro hkeeps
    refine ⟨fun a ha path' arguments' isConst' arity hreach => ?_,
      fun path' arguments' isConst' arity hreach => ?_⟩
    · exact hkeeps _ _ _ _ (.functionArgument ha hreach)
    · exact hkeeps _ _ _ _ (.functionResult hreach)
  · rintro ⟨hargs, hresult⟩ path' arguments' isConst' arity hreach
    cases hreach with
    | functionArgument ha hreach => exact hargs _ ha _ _ _ _ hreach
    | functionResult hreach => exact hresult _ _ _ _ hreach

/-! ## Shown and missed -/

/-- Sums of bounded summands are equal exactly if the summands are. -/
theorem sum_map_eq_iff {α : Type} {f g : α → Nat} {xs : List α} (h : ∀ x ∈ xs, f x ≤ g x) :
    (xs.map f).sum ≤ (xs.map g).sum ∧
      ((xs.map f).sum = (xs.map g).sum ↔ ∀ x ∈ xs, f x = g x) := by
  induction xs with
  | nil => simp
  | cons x xs ih =>
      obtain ⟨hx, hxs⟩ := List.forall_mem_cons.1 h
      obtain ⟨hle, hiff⟩ := ih hxs
      rw [List.forall_mem_cons, ← hiff]
      simp only [List.map_cons, List.sum_cons]
      omega

/-- A type shows no more placeholders than it misses, and as many exactly if it keeps them. -/
theorem placeholders_eq_length_misses_iff (t : TypeExpr) :
    t.placeholders s v ≤ (t.misses s v "").length ∧
      (t.placeholders s v = (t.misses s v "").length ↔ t.KeepsPlaceholders s v) := by
  induction t with
  | name path isConst indirection =>
      exact ⟨Nat.le_refl _, iff_of_true rfl keepsPlaceholders_name⟩
  | template path arguments isConst ih =>
      have hle := sum_map_eq_iff fun a ha => (ih a ha).1
      rw [placeholders, misses, templatePlaceholders, length_templateMisses, length_missesAll,
        placeholdersAll_eq_sum]
      cases h : v.templates.lookup (joinPath path) with
      | none => exact ⟨Nat.le_refl _, iff_of_true rfl (keepsPlaceholders_template_of_none h)⟩
      | some arity =>
          have hkeeps : (∀ a ∈ arguments, a.placeholders s v = (a.misses s v "").length) ↔
              ∀ a ∈ arguments, KeepsPlaceholders s v a :=
            forall₂_congr fun a ha => (ih a ha).2
          rw [keepsPlaceholders_template_of_some h, ← hkeeps, ← hle.2]
          by_cases ha : arguments.length = arity
          · simp [ha, hle.1]
          · have hzero : (∀ a ∈ arguments, a.misses s v "" = []) ↔
                (arguments.map fun a => (a.misses s v "").length).sum = 0 := by
              simp [List.sum_eq_zero_iff_forall_eq_nat]
            simp only [ha, if_false, not_false_eq_true, forall_const, hzero, ne_eq]
            omega
  | function arguments result isConst isNoExcept hargs hresult =>
      have hle := sum_map_eq_iff fun a ha => (hargs a ha).1
      have hkeeps : (∀ a ∈ arguments, a.2.placeholders s v = (a.2.misses s v "").length) ↔
          ∀ a ∈ arguments, KeepsPlaceholders s v a.2 :=
        forall₂_congr fun a ha => (hargs a ha).2
      rw [placeholders, misses, List.length_append, placeholdersArguments_eq_sum,
        length_missesArguments, keepsPlaceholders_function, ← hkeeps, ← hle.2, ← hresult.2]
      omega

end Bindery.TypeExpr
