import Bindery.Proofs.Text.Occurrences

/-!
# Cutting and joining

`join_splitOn`: the pieces of a text, with the separator between them, are the text. What is
replaced in it is found from the left, one character after the other.
-/

namespace Bindery.Text

variable {sep : List Char}

theorem splitFrom_ne_nil (skip : Nat) (s : List Char) : splitFrom sep skip s ≠ [] := by
  fun_induction splitFrom sep skip s with
  | case1 => simp
  | case2 _ _ _ ih => exact ih
  | case3 => simp
  | case4 c cs _ _ =>
      cases splitFrom sep 0 cs <;> simp [consFirst]

theorem splitOn_ne_nil (s : List Char) : splitOn sep s ≠ [] :=
  splitFrom_ne_nil 0 s

theorem join_cons_of_ne_nil {parts : List (List Char)} (h : parts ≠ []) (part : List Char) :
    join sep (part :: parts) = part ++ (sep ++ join sep parts) := by
  cases parts with
  | nil => exact absurd rfl h
  | cons next parts => exact join_cons_cons sep part next parts

theorem join_append {parts more : List (List Char)} (hparts : parts ≠ []) (hmore : more ≠ []) :
    join sep (parts ++ more) = join sep parts ++ (sep ++ join sep more) := by
  induction parts with
  | nil => exact absurd rfl hparts
  | cons first parts ih =>
      rw [List.cons_append, join_cons_of_ne_nil (by simp [hmore])]
      cases parts with
      | nil => rfl
      | cons next parts =>
          rw [ih (by simp), join_cons_cons]
          simp

theorem join_concat {parts : List (List Char)} (h : parts ≠ []) (part : List Char) :
    join sep (parts ++ [part]) = join sep parts ++ (sep ++ part) :=
  join_append h (List.cons_ne_nil part [])

theorem join_consFirst (c : Char) {parts : List (List Char)} (h : parts ≠ []) :
    join sep (consFirst c parts) = c :: join sep parts := by
  cases parts with
  | nil => exact absurd rfl h
  | cons part parts =>
      cases parts with
      | nil => rfl
      | cons next parts => rw [consFirst, join_cons_cons, join_cons_cons, List.cons_append]

/-- What has been taken already is missing in front. -/
theorem join_splitFrom (hsep : sep ≠ []) (skip : Nat) (s : List Char) :
    join sep (splitFrom sep skip s) = s.drop skip := by
  fun_induction splitFrom sep skip s with
  | case1 => simp [join]
  | case2 _ _ _ ih => simpa using ih
  | case3 c cs hpre ih =>
      obtain ⟨rest, hrest⟩ := List.isPrefixOf_iff_prefix.1 hpre
      obtain ⟨d, ds, rfl⟩ := List.exists_cons_of_ne_nil hsep
      obtain ⟨rfl, rfl⟩ := List.cons.inj hrest
      rw [join_cons_of_ne_nil (splitFrom_ne_nil _ _), ih]
      simp
  | case4 c cs _ ih => rw [join_consFirst c (splitFrom_ne_nil _ _), ih]; rfl

theorem join_splitOn (hsep : sep ≠ []) (s : List Char) : join sep (splitOn sep s) = s :=
  join_splitFrom hsep 0 s

/-! ## A separator of one character -/

theorem splitOn_singleton_cons (c d : Char) (s : List Char) :
    splitOn [c] (d :: s) =
      if c = d then [] :: splitOn [c] s else consFirst d (splitOn [c] s) := by
  by_cases h : c = d <;> simp [splitOn, splitFrom, h]

theorem splitOn_append_cons (c : Char) (a b : List Char) :
    splitOn [c] (a ++ c :: b) = splitOn [c] a ++ splitOn [c] b := by
  induction a with
  | nil => rw [List.nil_append, splitOn_singleton_cons, if_pos rfl]; rfl
  | cons d a ih =>
      rw [List.cons_append, splitOn_singleton_cons, splitOn_singleton_cons, ih]
      split
      · rfl
      · obtain ⟨part, parts, hcons⟩ := List.exists_cons_of_ne_nil (@splitOn_ne_nil [c] a)
        rw [hcons]
        rfl

theorem splitOn_join {c : Char} {parts : List (List Char)} (hne : parts ≠ [])
    (h : ∀ part ∈ parts, c ∉ part) : splitOn [c] (join [c] parts) = parts := by
  induction parts with
  | nil => exact absurd rfl hne
  | cons part parts ih =>
      obtain ⟨hpart, hparts⟩ := List.forall_mem_cons.1 h
      have hsplit : splitOn [c] part = [part] := splitOn_of_not_mem (x := c) (by simp) hpart
      cases parts with
      | nil => exact hsplit
      | cons next parts =>
          rw [join_cons_cons, List.singleton_append, splitOn_append_cons, hsplit,
            ih (by simp) hparts]
          rfl

/-- Without the separators, what was joined is in one piece. -/
theorem filter_join {c : Char} {parts : List (List Char)} (h : ∀ part ∈ parts, c ∉ part) :
    (join [c] parts).filter (· ≠ c) = parts.flatten := by
  induction parts with
  | nil => rfl
  | cons part parts ih =>
      obtain ⟨hpart, hparts⟩ := List.forall_mem_cons.1 h
      have hkept : part.filter (· ≠ c) = part :=
        List.filter_eq_self.2 fun d hd => decide_eq_true (ne_of_mem_of_not_mem hd hpart)
      cases parts with
      | nil => simpa [join] using hkept
      | cons next parts =>
          rw [join_cons_cons, List.filter_append, hkept, List.filter_append, ih hparts]
          simp

/-- Texts that end in the separator are cut into them and an empty one. -/
theorem splitOn_flatMap_concat {c : Char} {parts : List (List Char)}
    (h : ∀ part ∈ parts, c ∉ part) :
    splitOn [c] (parts.flatMap (· ++ [c])) = parts ++ [[]] := by
  induction parts with
  | nil => rfl
  | cons part parts ih =>
      obtain ⟨hpart, hparts⟩ := List.forall_mem_cons.1 h
      have hsplit : splitOn [c] part = [part] := splitOn_of_not_mem (x := c) (by simp) hpart
      rw [List.flatMap_cons, List.append_assoc, List.singleton_append, splitOn_append_cons, hsplit,
        ih hparts]
      rfl

theorem not_mem_of_mem_splitOn {c : Char} {s part : List Char} (h : part ∈ splitOn [c] s) :
    c ∉ part := by
  induction s generalizing part with
  | nil =>
      obtain rfl : part = [] := by simpa [splitOn, splitFrom] using h
      simp
  | cons d s ih =>
      rw [splitOn_singleton_cons] at h
      split at h
      next =>
        rcases List.mem_cons.1 h with rfl | h
        · simp
        · exact ih h
      next hd =>
        obtain ⟨first, parts, hcons⟩ := List.exists_cons_of_ne_nil (@splitOn_ne_nil [c] s)
        rw [hcons] at h
        rcases List.mem_cons.1 h with rfl | h
        · have hfirst : c ∉ first := ih (by simp [hcons])
          simp [hd, hfirst]
        · exact ih (by simp [hcons, h])

/-- An empty piece stands at an end with a separator, between two of them, or alone. -/
theorem nil_mem_splitOn_iff {c : Char} {s : List Char} : [] ∈ splitOn [c] s ↔
    s = [] ∨ s.head? = some c ∨ s.getLast? = some c ∨ [c, c] <:+: s := by
  constructor
  · intro h
    obtain ⟨before, behind, hpieces⟩ := List.append_of_mem h
    have hs := join_splitOn (List.cons_ne_nil c []) s
    rw [hpieces] at hs
    cases before with
    | nil =>
        cases behind with
        | nil => exact .inl hs.symm
        | cons next behind => exact .inr (.inl (by simp [← hs, join_cons_cons]))
    | cons first before =>
        rw [join_append (by simp) (by simp)] at hs
        cases behind with
        | nil => exact .inr (.inr (.inl (by simp [← hs, join])))
        | cons next behind =>
            rw [join_cons_cons, List.nil_append] at hs
            refine .inr (.inr (.inr ⟨join [c] (first :: before), join [c] (next :: behind), ?_⟩))
            rw [← hs]
            simp
  · rintro (rfl | hhead | hlast | ⟨before, behind, rfl⟩)
    · simp [splitOn, splitFrom]
    · obtain ⟨rest, rfl⟩ := List.head?_eq_some_iff.1 hhead
      simp [splitOn_singleton_cons]
    · obtain ⟨front, rfl⟩ := List.getLast?_eq_some_iff.1 hlast
      rw [splitOn_append_cons]
      simp [splitOn, splitFrom]
    · rw [List.append_assoc, List.cons_append, splitOn_append_cons]
      simp [splitOn_singleton_cons]

/-! ## Parts -/

/-- Parts with a separator between them, none of which can be taken for a longer one where the
separator or an end follows, are told from each other. -/
theorem join_inj_of_read {α : Type} {chars : α → List Char} {p e : Char → Prop} {c : Char}
    (hc : p c) (hce : ¬ e c) (hep : ∀ d, e d → p d) {a b : α} {as bs : List α} {cs ds : List Char}
    (hread : ∀ x ∈ a :: as, ∀ y ∈ b :: bs, ∀ cs ds, Begins p cs → Begins p ds →
      chars x ++ cs = chars y ++ ds → x = y ∧ cs = ds)
    (hcs : Begins e cs) (hds : Begins e ds)
    (h : join (c :: sep) ((a :: as).map chars) ++ cs =
      join (c :: sep) ((b :: bs).map chars) ++ ds) : a :: as = b :: bs ∧ cs = ds := by
  have hend {cs : List Char} (h : Begins e cs) : Begins p cs := fun d hd => hep d (h d hd)
  have hmore (cs : List Char) : Begins p (c :: cs) := begins_cons hc cs
  induction as generalizing a b bs with
  | nil =>
      cases bs with
      | nil =>
          obtain ⟨rfl, hrest⟩ := hread a (by simp) b (by simp) cs ds (hend hcs) (hend hds) h
          exact ⟨rfl, hrest⟩
      | cons b' bs =>
          simp only [List.map_cons, join_cons_cons, List.append_assoc, List.cons_append] at h
          obtain ⟨-, hrest⟩ := hread a (by simp) b (by simp) cs _ (hend hcs) (hmore _) h
          exact absurd hrest (hcs.ne_cons hce)
  | cons a' as ih =>
      cases bs with
      | nil =>
          simp only [List.map_cons, join_cons_cons, List.append_assoc, List.cons_append] at h
          obtain ⟨-, hrest⟩ := hread a (by simp) b (by simp) _ ds (hmore _) (hend hds) h
          exact absurd hrest.symm (hds.ne_cons hce)
      | cons b' bs =>
          simp only [List.map_cons, join_cons_cons, List.append_assoc, List.cons_append] at h
          obtain ⟨rfl, hrest⟩ := hread a (by simp) b (by simp) _ _ (hmore _) (hmore _) h
          obtain ⟨htail, hlast⟩ := ih (fun x hx y hy => hread x (List.mem_cons_of_mem a hx) y
            (List.mem_cons_of_mem a hy)) (List.append_cancel_left (List.cons.inj hrest).2)
          exact ⟨congrArg (a :: ·) htail, hlast⟩

/-! ## The front of a text -/

theorem splitFrom_eq_splitOn_drop (skip : Nat) (s : List Char) :
    splitFrom sep skip s = splitOn sep (s.drop skip) := by
  induction skip generalizing s with
  | zero => rfl
  | succ skip ih =>
      cases s with
      | nil => rfl
      | cons c cs => exact ih cs

theorem splitOn_append (hsep : sep ≠ []) (s : List Char) :
    splitOn sep (sep ++ s) = [] :: splitOn sep s := by
  obtain ⟨c, cs, rfl⟩ := List.exists_cons_of_ne_nil hsep
  have hpre : (c :: cs).isPrefixOf (c :: (cs ++ s)) = true :=
    List.isPrefixOf_iff_prefix.2 (List.prefix_append (c :: cs) s)
  rw [List.cons_append, splitOn, splitFrom, if_pos hpre, splitFrom_eq_splitOn_drop]
  simp

/-! ## Replacing -/

theorem flatten_consFirst (c : Char) (parts : List (List Char)) :
    (consFirst c parts).flatten = c :: parts.flatten := by
  cases parts <;> rfl

theorem flatten_splitFrom_sublist (skip : Nat) (s : List Char) :
    (splitFrom sep skip s).flatten.Sublist s := by
  fun_induction splitFrom sep skip s with
  | case1 => exact .slnil
  | case2 _ c _ ih => exact ih.cons c
  | case3 c _ _ ih => exact ih.cons c
  | case4 c _ _ ih =>
      rw [flatten_consFirst]
      exact ih.cons_cons c

variable {old new : List Char}

theorem mem_replace {x : Char} {s : List Char} (h : x ∈ replace old new s) : x ∈ new ∨ x ∈ s := by
  rcases mem_join h with h | ⟨piece, hpiece, h⟩
  · exact .inl h
  · exact .inr ((flatten_splitFrom_sublist 0 s).subset (List.mem_flatten_of_mem hpiece h))

@[simp] theorem replace_nil : replace old new [] = [] := rfl

theorem replace_append (hold : old ≠ []) (s : List Char) :
    replace old new (old ++ s) = new ++ replace old new s := by
  rw [replace, splitOn_append hold, join_cons_of_ne_nil (splitOn_ne_nil s), List.nil_append,
    replace]

theorem replace_cons {c : Char} {s : List Char} (h : ¬ old <+: c :: s) :
    replace old new (c :: s) = c :: replace old new s := by
  rw [replace, splitOn_cons h, join_consFirst c (splitOn_ne_nil s), replace]

theorem replace_singleton (x : Char) (s : List Char) :
    replace [x] new s = s.flatMap fun c => if c = x then new else [c] := by
  induction s with
  | nil => rfl
  | cons c cs ih =>
      by_cases hc : c = x
      · subst hc
        rw [List.flatMap_cons, if_pos rfl, ← ih]
        exact replace_append (List.cons_ne_nil c []) cs
      · have hpre : ¬ [x] <+: c :: cs := fun hp => hc (List.cons_prefix_cons.1 hp).1.symm
        simp [replace_cons hpre, ih, hc]

end Bindery.Text
