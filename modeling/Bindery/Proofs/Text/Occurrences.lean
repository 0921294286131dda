import Bindery.Text.Split
import Mathlib.Algebra.GroupWithZero.Nat
import Mathlib.Data.List.Basic

/-!
# How often a pattern stands in a text

`occurrences_append`: where no occurrence crosses the seam of two texts, theirs add up. A character
that the pattern lacks makes such a seam.
-/

namespace Bindery.Text

/-- The number of places at which `pattern` begins. -/
def occurrences (pattern : List Char) : List Char → Nat
  | [] => 0
  | c :: cs => (if pattern <+: c :: cs then 1 else 0) + occurrences pattern cs

variable {pattern : List Char}

theorem occurrences_eq_zero {x : Char} {cs : List Char} (hx : x ∈ pattern) (h : x ∉ cs) :
    occurrences pattern cs = 0 := by
  induction cs with
  | nil => rfl
  | cons c cs ih =>
      have hno : ¬ pattern <+: c :: cs := fun hpre => h (hpre.subset hx)
      rw [occurrences, if_neg hno, ih (fun hmem => h (List.mem_cons_of_mem c hmem))]

/-- A prefix of a text of two parts ends in the first part, or it has all of it. -/
theorem prefix_or_crosses {p a b : List Char} (h : p <+: a ++ b) :
    p <+: a ∨ ∃ q, q ≠ [] ∧ p = a ++ q ∧ q <+: b := by
  rcases List.prefix_or_prefix_of_prefix h (List.prefix_append a b) with hpa | ⟨q, rfl⟩
  · exact .inl hpa
  · have hqb : q <+: b := (List.prefix_append_right_inj a).1 h
    by_cases hq : q = []
    · subst hq
      exact .inl (by simp)
    · exact .inr ⟨q, hq, rfl, hqb⟩

/-- No occurrence begins in the first of two texts and ends in the second. -/
def Apart (pattern a b : List Char) : Prop :=
  ∀ p q, pattern = p ++ q → p ≠ [] → q ≠ [] → p <:+ a → ¬ q <+: b

theorem occurrences_append {a b : List Char} (h : Apart pattern a b) :
    occurrences pattern (a ++ b) = occurrences pattern a + occurrences pattern b := by
  induction a with
  | nil => simp [occurrences]
  | cons c a ih =>
      have hiff : pattern <+: c :: (a ++ b) ↔ pattern <+: c :: a := by
        constructor
        · intro hpre
          rcases prefix_or_crosses (a := c :: a) hpre with hpre | ⟨q, hq, heq, hqb⟩
          · exact hpre
          · exact absurd hqb (h (c :: a) q heq (List.cons_ne_nil c a) hq (List.suffix_refl _))
        · intro hpre
          exact hpre.trans (List.prefix_append (c :: a) b)
      have htail : Apart pattern a b := fun p q heq hp hq hpa =>
        h p q heq hp hq (hpa.trans (List.suffix_cons c a))
      simp only [List.cons_append, occurrences, hiff, ih htail, Nat.add_assoc]

/-! ## Seams -/

theorem apart_cons {c : Char} (hc : c ∉ pattern) (a b : List Char) : Apart pattern a (c :: b) := by
  rintro p q rfl - hq - hqb
  cases q with
  | nil => exact hq rfl
  | cons d q =>
      obtain rfl : d = c := (List.cons_prefix_cons.1 hqb).1
      exact hc (by simp)

theorem occurrences_cons_of_ne {first c : Char} {rest : List Char} (h : c ≠ first)
    (cs : List Char) : occurrences (first :: rest) (c :: cs) = occurrences (first :: rest) cs := by
  have hno : ¬ first :: rest <+: c :: cs := fun hpre => h (List.cons_prefix_cons.1 hpre).1.symm
  rw [occurrences, if_neg hno, Nat.zero_add]

theorem occurrences_append_of_not_mem {first : Char} {rest a : List Char} (h : first ∉ a)
    (b : List Char) : occurrences (first :: rest) (a ++ b) = occurrences (first :: rest) b := by
  induction a with
  | nil => rfl
  | cons c a ih =>
      have hc : c ≠ first := (List.ne_of_not_mem_cons h).symm
      rw [List.cons_append, occurrences_cons_of_ne hc, ih (List.not_mem_of_not_mem_cons h)]

/-- A character that the pattern lacks parts a text. -/
theorem occurrences_append_cons {c : Char} (hc : c ∉ pattern) (hp : pattern ≠ [])
    (a b : List Char) :
    occurrences pattern (a ++ c :: b) = occurrences pattern a + occurrences pattern b := by
  rw [occurrences_append (apart_cons hc a b)]
  cases pattern with
  | nil => exact absurd rfl hp
  | cons first rest => rw [occurrences_cons_of_ne (List.ne_of_not_mem_cons hc)]

theorem join_cons_cons (sep part next : List Char) (parts : List (List Char)) :
    join sep (part :: next :: parts) = part ++ (sep ++ join sep (next :: parts)) := by
  simp [join]

theorem occurrences_join {first c : Char} {rest sep : List Char} (hc : c ∉ first :: rest)
    (hsep : first ∉ sep) (parts : List (List Char)) :
    occurrences (first :: rest) (join (c :: sep) parts) =
      (parts.map (occurrences (first :: rest))).sum := by
  induction parts with
  | nil => rfl
  | cons part parts ih =>
      cases parts with
      | nil => simp [join]
      | cons next parts =>
          rw [join_cons_cons, List.cons_append, occurrences_append_cons hc (by simp),
            occurrences_append_of_not_mem hsep, ih]
          rfl

/-! ## Ends of texts -/

/-- What ends a text and lacks a character stands behind the last one of it. -/
theorem suffix_of_suffix_append_cons {c : Char} {w a b : List Char} (h : w <:+ a ++ c :: b)
    (hc : c ∉ w) : w <:+ b := by
  rcases List.suffix_or_suffix_of_suffix h (List.suffix_append a (c :: b)) with hw | hcb
  · rcases List.suffix_cons_iff.1 hw with rfl | hw
    · exact absurd (by simp) hc
    · exact hw
  · exact absurd (hcb.subset (by simp)) hc

theorem suffix_of_suffix_join {c : Char} {w : List Char} {parts : List (List Char)} (hw : w ≠ [])
    (hc : c ∉ w) (h : w <:+ join [c] parts) : ∃ part ∈ parts, w <:+ part := by
  induction parts with
  | nil => exact absurd (List.suffix_nil.1 h) hw
  | cons part parts ih =>
      cases parts with
      | nil => exact ⟨part, by simp, h⟩
      | cons next parts =>
          rw [join_cons_cons] at h
          obtain ⟨p, hp, hwp⟩ := ih (suffix_of_suffix_append_cons h hc)
          exact ⟨p, List.mem_cons_of_mem part hp, hwp⟩

/-! ## Cuts -/

/-- The first character is such a one, if there is any. -/
def Begins (p : Char → Prop) (cs : List Char) : Prop :=
  ∀ c ∈ cs.head?, p c

theorem begins_nil {p : Char → Prop} : Begins p [] := nofun

theorem begins_cons {p : Char → Prop} {c : Char} (hc : p c) (cs : List Char) :
    Begins p (c :: cs) := by
  intro d hd
  obtain rfl : c = d := by simpa using hd
  exact hc

theorem Begins.append {p : Char → Prop} {cs ds : List Char} (hcs : Begins p cs)
    (hds : Begins p ds) : Begins p (cs ++ ds) := by
  cases cs with
  | nil => exact hds
  | cons c cs => exact begins_cons (hcs c rfl) (cs ++ ds)

theorem Begins.ne_cons {p : Char → Prop} {c : Char} {cs ds : List Char} (h : Begins p cs)
    (hc : ¬ p c) : cs ≠ c :: ds := by
  rintro rfl
  exact hc (h c rfl)

theorem takeWhile_append_of_head {p : Char → Bool} {a cs : List Char} (ha : ∀ c ∈ a, p c = false)
    (hcs : Begins (p · = true) cs) : (a ++ cs).takeWhile (fun c => !p c) = a := by
  have hnone : cs.takeWhile (fun c => !p c) = [] := by
    cases cs with
    | nil => rfl
    | cons c cs => simp [hcs c rfl]
  rw [List.takeWhile_append_of_pos (fun c hc => by simp [ha c hc]), hnone, List.append_nil]

/-- A text is cut before the first character of a kind in one way only. -/
theorem append_inj_of_head {p : Char → Bool} {a b cs ds : List Char} (ha : ∀ c ∈ a, p c = false)
    (hb : ∀ c ∈ b, p c = false) (hcs : Begins (p · = true) cs) (hds : Begins (p · = true) ds)
    (h : a ++ cs = b ++ ds) : a = b ∧ cs = ds := by
  have hab : a = b := by
    rw [← takeWhile_append_of_head ha hcs, h, takeWhile_append_of_head hb hds]
  exact ⟨hab, List.append_cancel_left (hab ▸ h)⟩

theorem append_cons_inj_of_not_mem {c : Char} {a b cs ds : List Char} (ha : c ∉ a) (hb : c ∉ b)
    (h : a ++ c :: cs = b ++ c :: ds) : a = b ∧ cs = ds := by
  have hne (a : List Char) (ha : c ∉ a) : ∀ d ∈ a, (d == c) = false :=
    fun d hd => beq_false_of_ne fun heq => ha (heq ▸ hd)
  obtain ⟨hab, hrest⟩ := append_inj_of_head (hne a ha) (hne b hb)
    (begins_cons (by simp) cs) (begins_cons (by simp) ds) h
  exact ⟨hab, (List.cons.inj hrest).2⟩

/-! ## Characters -/

/-- No control character below the blank is in the text. -/
def ControlFree (cs : List Char) : Prop :=
  ∀ c ∈ cs, 32 ≤ c.toNat

instance (cs : List Char) : Decidable (ControlFree cs) :=
  decidable_of_iff (cs.all (fun c => 32 ≤ c.toNat) = true) (by simp [ControlFree])

@[simp] theorem controlFree_nil : ControlFree [] := nofun

@[simp] theorem controlFree_append {a b : List Char} :
    ControlFree (a ++ b) ↔ ControlFree a ∧ ControlFree b :=
  List.forall_mem_append

@[simp] theorem controlFree_cons {c : Char} {cs : List Char} :
    ControlFree (c :: cs) ↔ 32 ≤ c.toNat ∧ ControlFree cs :=
  List.forall_mem_cons

theorem mem_join {x : Char} {sep : List Char} {parts : List (List Char)} (h : x ∈ join sep parts) :
    x ∈ sep ∨ ∃ part ∈ parts, x ∈ part := by
  induction parts with
  | nil => simp [join] at h
  | cons part parts ih =>
      cases parts with
      | nil => exact .inr ⟨part, by simp, h⟩
      | cons next parts =>
          rw [join_cons_cons, List.mem_append, List.mem_append] at h
          rcases h with h | h | h
          · exact .inr ⟨part, by simp, h⟩
          · exact .inl h
          · rcases ih h with hsep | ⟨p, hp, hx⟩
            · exact .inl hsep
            · exact .inr ⟨p, List.mem_cons_of_mem part hp, hx⟩

theorem mem_joined {x : Char} {sep : String} {parts : List String}
    (h : x ∈ (joined sep parts).toList) : x ∈ sep.toList ∨ ∃ part ∈ parts, x ∈ part.toList := by
  rw [joined, String.toList_ofList] at h
  rcases mem_join h with hsep | ⟨_, hpart, hx⟩
  · exact .inl hsep
  · obtain ⟨part, hmem, rfl⟩ := List.mem_map.1 hpart
    exact .inr ⟨part, hmem, hx⟩

theorem ControlFree.join {sep : List Char} {parts : List (List Char)} (hsep : ControlFree sep)
    (h : ∀ part ∈ parts, ControlFree part) : ControlFree (join sep parts) := by
  intro c hc
  rcases mem_join hc with hc | ⟨part, hpart, hc⟩
  · exact hsep c hc
  · exact h part hpart c hc

/-! ## Texts in one piece -/

theorem splitOn_cons {c : Char} {sep s : List Char} (h : ¬ sep <+: c :: s) :
    splitOn sep (c :: s) = consFirst c (splitOn sep s) := by
  rw [splitOn, splitFrom, if_neg (mt List.isPrefixOf_iff_prefix.1 h)]
  rfl

theorem splitOn_of_not_infix {sep s : List Char} (h : ¬ sep <:+: s) : splitOn sep s = [s] := by
  induction s with
  | nil => rfl
  | cons c s ih =>
      rw [List.infix_cons_iff, not_or] at h
      rw [splitOn_cons h.1, ih h.2]
      rfl

/-- A separator with a character that the text lacks does not cut it. -/
theorem splitOn_of_not_mem {x : Char} {sep s : List Char} (hx : x ∈ sep) (h : x ∉ s) :
    splitOn sep s = [s] :=
  splitOn_of_not_infix fun hsub => h (hsub.subset hx)

theorem replace_of_not_mem {x : Char} {old s : List Char} (new : List Char) (hx : x ∈ old)
    (h : x ∉ s) : replace old new s = s := by
  rw [replace, splitOn_of_not_mem hx h]
  rfl

end Bindery.Text
