import Bindery.Proofs.Text.Split

/-!
# Parts that are found again

`splitOn_join_iff`: the pieces of joined parts are these parts again if no separator begins in one
of them, and only then. One that begins in a part may end in the separator behind it.
-/

namespace Bindery.Text

/-- No separator stands in a part, and none begins there that the separator behind it completes. -/
inductive Separated (sep : List Char) : List (List Char) → Prop where
  | last {part : List Char} : ¬ sep <:+: part → Separated sep [part]
  | cons {part : List Char} {parts : List (List Char)} : ¬ sep <:+: part ++ sep.dropLast →
      Separated sep parts → Separated sep (part :: parts)

variable {sep : List Char} {parts : List (List Char)}

theorem Separated.ne_nil (h : Separated sep parts) : parts ≠ [] := by
  cases h <;> exact List.cons_ne_nil _ _

theorem separated_singleton_iff {part : List Char} : Separated sep [part] ↔ ¬ sep <:+: part := by
  constructor
  · intro h
    cases h with
    | last hpart => exact hpart
    | cons _ hnil => exact absurd rfl hnil.ne_nil
  · exact .last

theorem separated_cons_iff (hne : parts ≠ []) {part : List Char} :
    Separated sep (part :: parts) ↔ ¬ sep <:+: part ++ sep.dropLast ∧ Separated sep parts := by
  constructor
  · intro h
    cases h with
    | last => exact absurd rfl hne
    | cons hpart hparts => exact ⟨hpart, hparts⟩
  · rintro ⟨hpart, hparts⟩
    exact .cons hpart hparts

theorem join_eq_nil_iff (hsep : sep ≠ []) : join sep parts = [] ↔ parts = [] ∨ parts = [[]] := by
  cases parts with
  | nil => simp [join]
  | cons part parts =>
      cases parts with
      | nil => simp [join]
      | cons next parts => simp [join_cons_cons, hsep]

/-! ## From parts to a text and back -/

theorem prefix_append_dropLast (part s : List Char) :
    part ++ sep.dropLast <+: part ++ (sep ++ s) := by
  rw [List.prefix_append_right_inj]
  exact (List.dropLast_prefix sep).trans (List.prefix_append sep s)

/-- An occurrence at the front of a part would end before the separator behind it does. -/
theorem not_prefix_of_not_infix {c : Char} {part : List Char}
    (h : ¬ sep <:+: c :: part ++ sep.dropLast) (s : List Char) :
    ¬ sep <+: c :: part ++ (sep ++ s) := by
  intro hpre
  have hlength : sep.length ≤ (c :: part ++ sep.dropLast).length := by
    simp only [List.length_append, List.length_cons, List.length_dropLast]
    omega
  exact h (List.prefix_of_prefix_length_le hpre (prefix_append_dropLast _ s) hlength).isInfix

theorem splitOn_append_separator (hsep : sep ≠ []) {part : List Char}
    (h : ¬ sep <:+: part ++ sep.dropLast) (s : List Char) :
    splitOn sep (part ++ (sep ++ s)) = part :: splitOn sep s := by
  induction part with
  | nil => exact splitOn_append hsep s
  | cons c part ih =>
      have htail : ¬ sep <:+: part ++ sep.dropLast := fun hsub =>
        h (hsub.trans (List.suffix_cons c _).isInfix)
      have hfront : ¬ sep <+: c :: (part ++ (sep ++ s)) := not_prefix_of_not_infix h s
      rw [List.cons_append, splitOn_cons hfront, ih htail]
      rfl

theorem Separated.splitOn_join (hsep : sep ≠ []) (h : Separated sep parts) :
    splitOn sep (join sep parts) = parts := by
  induction h with
  | last hpart => exact splitOn_of_not_infix hpart
  | cons hpart hparts ih =>
      rw [join_cons_of_ne_nil hparts.ne_nil, splitOn_append_separator hsep hpart, ih]

/-! ## From a text to pieces -/

theorem Separated.consFirst {c : Char} (h : Separated sep parts)
    (hc : ¬ sep <+: c :: join sep parts) : Separated sep (consFirst c parts) := by
  cases h with
  | last hpart => exact .last fun hsub => (List.infix_cons_iff.1 hsub).elim hc hpart
  | @cons part _ hpart hparts =>
      rw [join_cons_of_ne_nil hparts.ne_nil] at hc
      refine .cons (fun hsub => ?_) hparts
      rcases List.infix_cons_iff.1 hsub with hpre | hsub
      · exact hc (hpre.trans (prefix_append_dropLast (c :: part) _))
      · exact hpart hsub

theorem separated_splitFrom (hsep : sep ≠ []) (skip : Nat) (s : List Char) :
    Separated sep (splitFrom sep skip s) := by
  fun_induction splitFrom sep skip s with
  | case1 => exact .last fun hsub => hsep (List.infix_nil.1 hsub)
  | case2 _ _ _ ih => exact ih
  | case3 _ _ _ ih =>
      -- The piece in front of it is empty, and half a separator is too short for a whole one.
      have hpos := List.length_pos_iff.2 hsep
      refine .cons (fun hsub => ?_) ih
      have hlength := hsub.length_le
      rw [List.nil_append, List.length_dropLast] at hlength
      omega
  | case4 c cs hpre ih =>
      refine ih.consFirst ?_
      rw [join_splitFrom hsep, List.drop_zero]
      exact mt List.isPrefixOf_iff_prefix.2 hpre

theorem splitOn_join_iff (hsep : sep ≠ []) :
    splitOn sep (join sep parts) = parts ↔ Separated sep parts := by
  constructor
  · intro h
    rw [← h]
    exact separated_splitFrom hsep 0 (join sep parts)
  · exact Separated.splitOn_join hsep

/-! ## A separator of one character twice -/

theorem pair_infix_concat_iff {c : Char} {part : List Char} :
    [c, c] <:+: part ++ [c] ↔ [c, c] <:+: part ∨ part.getLast? = some c := by
  rw [List.infix_concat_iff, or_comm, List.getLast?_eq_some_iff]
  refine or_congr_right ⟨fun h => ?_, ?_⟩
  · obtain ⟨front, hfront⟩ := h
    exact ⟨front, List.append_cancel_right (hfront.symm.trans (List.append_cons front c [c]))⟩
  · rintro ⟨front, rfl⟩
    exact ⟨front, List.append_cons front c [c]⟩

/-- Only the last part may end in half a separator. -/
theorem separated_pair_iff {c : Char} : Separated [c, c] parts ↔ parts ≠ [] ∧
    (∀ part ∈ parts, ¬ [c, c] <:+: part) ∧ ∀ part ∈ parts.dropLast, part.getLast? ≠ some c := by
  induction parts with
  | nil => exact iff_of_false (fun h => h.ne_nil rfl) fun h => h.1 rfl
  | cons part parts ih =>
      cases parts with
      | nil => simp [separated_singleton_iff]
      | cons next parts =>
          have hnext := List.cons_ne_nil next parts
          have hhalf : [c, c].dropLast = [c] := rfl
          rw [separated_cons_iff hnext, hhalf, pair_infix_concat_iff, not_or, ih,
            List.dropLast_cons_cons]
          constructor
          · rintro ⟨⟨hpart, hlast⟩, -, hparts, hlasts⟩
            exact ⟨List.cons_ne_nil part _, List.forall_mem_cons.2 ⟨hpart, hparts⟩,
              List.forall_mem_cons.2 ⟨hlast, hlasts⟩⟩
          · rintro ⟨-, hwhole, hends⟩
            obtain ⟨hpart, hparts⟩ := List.forall_mem_cons.1 hwhole
            obtain ⟨hlast, hlasts⟩ := List.forall_mem_cons.1 hends
            exact ⟨⟨hpart, hlast⟩, hnext, hparts, hlasts⟩

end Bindery.Text
