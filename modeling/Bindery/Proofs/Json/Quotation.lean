import Bindery.Proofs.Json.Spelling

/-!
# What stands between quotes

A text that spells a value has `<` and backslashes between quotes only. So no such text ends in
another one that follows a `<` of it: what is between quotes in one is outside of them in the other.
`Spells.eq_of_append_eq` says this of two ways to cut one text.
-/

namespace Bindery.Json

inductive Place where
  | outside
  | inside
  /-- Behind a backslash. -/
  | behind
  deriving DecidableEq, Repr

namespace Place

/-- Where the next character stands, unless this one is out of place. -/
def step : Place → Char → Option Place
  | .outside, c =>
    if c = '"' then some .inside else if c = '\\' || c = '<' then none else some .outside
  | .inside, c => some (if c = '"' then .outside else if c = '\\' then .behind else .inside)
  | .behind, _ => some .inside

def run (p : Place) (cs : List Char) : Option Place :=
  cs.foldlM step p

@[simp] theorem run_nil (p : Place) : p.run [] = some p := rfl

@[simp] theorem run_cons (p : Place) (c : Char) (cs : List Char) :
    p.run (c :: cs) = (p.step c).bind fun q => q.run cs := rfl

@[simp] theorem run_append (p : Place) (a b : List Char) :
    p.run (a ++ b) = (p.run a).bind fun q => q.run b :=
  List.foldlM_append

theorem run_outside_of_not_mem {cs : List Char} (hquote : '"' ∉ cs) (hbackslash : '\\' ∉ cs)
    (hless : '<' ∉ cs) : Place.outside.run cs = some .outside := by
  induction cs with
  | nil => rfl
  | cons c cs ih =>
      simp only [List.mem_cons, not_or] at hquote hbackslash hless
      simp [step, Ne.symm hquote.1, Ne.symm hbackslash.1, Ne.symm hless.1,
        ih hquote.2 hbackslash.2 hless.2]

/-- Two readers of one text, of whom only one stands between quotes, never come together. -/
theorem run_outside_ne_run_inside {cs : List Char} {p q : Place}
    (hp : Place.outside.run cs = some p) (hq : Place.inside.run cs = some q) : p ≠ q := by
  induction cs generalizing p q with
  | nil =>
      cases hp
      cases hq
      decide
  | cons c cs ih =>
      rw [run_cons] at hp hq
      by_cases hquote : c = '"'
      · subst hquote
        exact (ih hq hp).symm
      by_cases hbackslash : c = '\\'
      · subst hbackslash
        cases hp
      · by_cases hless : c = '<'
        · subst hless
          cases hp
        · simp only [step, hquote, hbackslash, hless, if_false, Bool.or_self, decide_false,
            Bool.false_eq_true, Option.bind_some] at hp hq
          exact ih hp hq

end Place

open Place

/-! ## Spelt texts -/

theorem Letter.run {c : Char} {text : List Char} (h : Letter c text) :
    Place.inside.run text = some .inside := by
  cases h with
  | plain _ hquote hbackslash => simp [step, hquote, hbackslash]
  | escape _ => simp [step]
  | @unit n hn =>
      revert n
      decide

theorem Letters.run {cs text : List Char} (h : Letters cs text) :
    Place.inside.run text = some .inside := by
  induction h with
  | nil => rfl
  | cons hletter _ ih => rw [run_append, hletter.run, Option.bind_some, ih]

theorem Spells.run {part : Part} {text : List Char} (h : Spells part text) :
    Place.outside.run text = some .outside := by
  have hquoted {cs text : List Char} (h : Letters cs text) (rest : List Char) :
      Place.outside.run ('"' :: (text ++ '"' :: rest)) = Place.outside.run rest := by
    simp [step, h.run]
  induction h with
  | null => rfl
  | bool b => cases b <;> rfl
  | @integer i _ =>
      exact run_outside_of_not_mem (not_mem_integerText (by decide) (by decide))
        (not_mem_integerText (by decide) (by decide)) (not_mem_integerText (by decide) (by decide))
  | string hletters => exact hquoted hletters []
  | emptyList => rfl
  | list _ ih => simp [step, ih]
  | emptyTable => rfl
  | table _ ih => simp [step, ih]
  | lastItem _ ih => exact ih
  | item _ _ ihvalue ihitems => simp [step, ihvalue, ihitems]
  | lastMember hkey _ ih => simp [hquoted hkey, step, ih]
  | member hkey _ _ ihvalue ihmembers =>
      simp [hquoted hkey, step, ihvalue, ihmembers]

variable {m n : Node} {t u : List Char}

theorem Spells.not_spells_of_append {a : List Char} (h : Spells (.value m) (a ++ '<' :: t)) :
    ¬ Spells (.value n) t := by
  intro ht
  have hrun := h.run
  rw [run_append] at hrun
  -- The `<` stands between quotes, so its reader goes on inside while the other begins outside.
  obtain ⟨p, -, hrest⟩ := Option.bind_eq_some_iff.1 hrun
  rw [run_cons] at hrest
  obtain ⟨q, hq, hinside⟩ := Option.bind_eq_some_iff.1 hrest
  have hq : q = .inside := by
    cases p with
    | outside => cases hq
    | inside => cases hq; rfl
    | behind => cases hq; rfl
  subst hq
  exact run_outside_ne_run_inside ht.run hinside rfl

theorem Spells.eq_of_append_eq {a b : List Char} (ht : Spells (.value m) t)
    (hu : Spells (.value n) u) (h : a ++ '<' :: t = b ++ '<' :: u) : t = u := by
  rcases List.append_eq_append_iff.1 h with ⟨w, -, hw⟩ | ⟨w, -, hw⟩
  · cases w with
    | nil => exact (List.cons.inj hw).2
    | cons c w =>
        obtain ⟨-, rfl⟩ := List.cons.inj hw
        exact absurd hu ht.not_spells_of_append
  · cases w with
    | nil => exact (List.cons.inj hw).2.symm
    | cons c w =>
        obtain ⟨-, rfl⟩ := List.cons.inj hw
        exact absurd ht hu.not_spells_of_append

/-- A text spells one value at most. -/
theorem Spells.unique (ht : Spells (.value m) t) (hn : Spells (.value n) t) : m = n := by
  have h := ht.document.symm.trans hn.document
  exact (Document.mk.inj h).2.1

end Bindery.Json
