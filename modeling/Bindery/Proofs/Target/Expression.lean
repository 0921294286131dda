import Bindery.Proofs.Text.Split

/-!
# How Python reads the text of a type

An `Expression` is a tree of Python's own grammar, as far as types are written in it, and
`Grammatical` says which trees it allows: `|` joins from the left, so no union stands on its right.
`Expression.eq_of_chars_eq`: no text can be read in two ways.
-/

namespace Bindery.Python

open Text

/-- The characters that stand around the words of a type. -/
def isMark (c : Char) : Bool :=
  " []|,\"".toList.contains c

/-- Some characters, and no mark among them. -/
structure Word (text : String) : Prop where
  nonempty : text ≠ ""
  chars : ∀ c ∈ text.toList, isMark c = false

instance (text : String) : Decidable (Word text) :=
  decidable_of_iff (text ≠ "" ∧ text.toList.all (fun c => isMark c = false) = true)
    ⟨fun h => ⟨h.1, fun c hc => of_decide_eq_true (List.all_eq_true.1 h.2 c hc)⟩,
      fun h => ⟨h.nonempty, List.all_eq_true.2 fun c hc => decide_eq_true (h.chars c hc)⟩⟩

inductive Expression where
  | word (text : String)
  /-- A text between double quotes. -/
  | literal (text : String)
  | list (items : List Expression)
  | subscript (name : String) (items : List Expression)
  | union (first last : Expression)
  deriving Repr

namespace Expression

mutual
def chars : Expression → List Char
  | .word text => text.toList
  | .literal text => '"' :: (text.toList ++ ['"'])
  | .list items => '[' :: (join [',', ' '] (itemChars items) ++ [']'])
  | .subscript name items => name.toList ++ '[' :: (join [',', ' '] (itemChars items) ++ [']'])
  | .union first last => first.chars ++ ' ' :: '|' :: ' ' :: last.chars

def itemChars : List Expression → List (List Char)
  | [] => []
  | x :: xs => x.chars :: itemChars xs
end

/-- It may stand on the right of `|`. -/
def isOperand : Expression → Bool
  | .word .. => true
  | .literal .. => true
  | .list .. => true
  | .subscript .. => true
  | .union .. => false

/-- A literal has neither escapes nor quotes in it, and nothing is subscripted by nothing. -/
inductive Grammatical : Expression → Prop where
  | word {text} : Word text → Grammatical (.word text)
  | literal {text} : '"' ∉ text.toList → '\\' ∉ text.toList → Grammatical (.literal text)
  | list {items} : (∀ x ∈ items, Grammatical x) → Grammatical (.list items)
  | subscript {name items} : Word name → items ≠ [] → (∀ x ∈ items, Grammatical x) →
      Grammatical (.subscript name items)
  | union {first last} : Grammatical first → Grammatical last → last.isOperand = true →
      Grammatical (.union first last)

end Expression

/-! ## Words end at marks -/

theorem Word.append_ne_cons {text : String} (h : Word text) {c : Char} (hc : isMark c = true)
    (cs ds : List Char) : text.toList ++ cs ≠ c :: ds := by
  obtain ⟨d, w, hw⟩ :=
    List.exists_cons_of_ne_nil fun hnil => h.nonempty (String.toList_eq_nil_iff.1 hnil)
  rw [hw, List.cons_append]
  intro heq
  have hd := h.chars d (by simp [hw])
  rw [(List.cons.inj heq).1, hc] at hd
  contradiction

/-- The word that a text begins with is all that stands before the first mark. -/
theorem Word.eq_of_append_eq {v w : String} {cs ds : List Char} (hv : Word v) (hw : Word w)
    (hcs : Begins (isMark · = true) cs) (hds : Begins (isMark · = true) ds)
    (h : v.toList ++ cs = w.toList ++ ds) : v = w ∧ cs = ds := by
  obtain ⟨hwords, hrest⟩ := append_inj_of_head hv.chars hw.chars hcs hds h
  exact ⟨String.toList_inj.1 hwords, hrest⟩

/-! ## What stands behind an expression -/

/-- What ends an expression that stands in brackets, if anything follows it. -/
def isEnd (c : Char) : Prop := c = ',' ∨ c = ']'

/-- What stands behind an operand: the end of the expression, or the rest of a union. -/
def isOperandEnd (c : Char) : Prop := c = ' ' ∨ isEnd c

abbrev Ended (cs : List Char) : Prop := Begins isEnd cs

abbrev Follows (cs : List Char) : Prop := Begins isOperandEnd cs

theorem Follows.marked {cs : List Char} (h : Follows cs) : Begins (isMark · = true) cs := by
  intro c hc
  rcases h c hc with rfl | rfl | rfl <;> decide

theorem Follows.ne_bracket {cs ds : List Char} (h : Follows cs) : cs ≠ '[' :: ds :=
  h.ne_cons (by simp [isOperandEnd, isEnd])

namespace Expression

theorem itemChars_eq_map (items : List Expression) : itemChars items = items.map chars := by
  induction items with
  | nil => rfl
  | cons x xs ih => simp [itemChars, ih]

theorem Grammatical.append_ne_close {x : Expression} (h : Grammatical x) (cs ds : List Char) :
    x.chars ++ cs ≠ ']' :: ds := by
  induction h generalizing cs with
  | word hword => exact hword.append_ne_cons (by decide) _ _
  | literal _ _ => simp [chars]
  | list _ _ => simp [chars]
  | subscript hname _ _ _ =>
      rw [chars, List.append_assoc]
      exact hname.append_ne_cons (by decide) _ _
  | union _ _ _ ihfirst _ =>
      rw [chars, List.append_assoc]
      exact ihfirst _

/-! ## Operands -/

/-- What `|` joins, from left to right. -/
def operands : Expression → List Expression
  | .union first last => first.operands ++ [last]
  | x => [x]

theorem operands_eq_singleton {x : Expression} (h : x.isOperand = true) : x.operands = [x] := by
  cases x with
  | union first last => cases h
  | _ => rfl

theorem operands_ne_nil (x : Expression) : x.operands ≠ [] := by
  cases x <;> simp [operands]

theorem chars_eq_join_operands (x : Expression) :
    x.chars = join [' ', '|', ' '] (x.operands.map chars) := by
  induction x using operands.induct with
  | case1 first last ih =>
      have hne : first.operands.map chars ≠ [] := by simp [operands_ne_nil]
      rw [chars, operands, List.map_append, List.map_singleton, join_concat hne, ← ih]
      rfl
  | case2 x hx =>
      cases x with
      | union first last => exact absurd rfl (hx first last)
      | _ => rfl

theorem operands_injective {x y : Expression} (h : x.operands = y.operands) : x = y := by
  have hunion {first last y : Expression} (h : first.operands ++ [last] = y.operands)
      (hy : y.isOperand = true) : False := by
    rw [operands_eq_singleton hy, List.append_eq_singleton_iff] at h
    rcases h with ⟨hnil, -⟩ | ⟨-, hnil⟩
    · exact first.operands_ne_nil hnil
    · cases hnil
  induction x using operands.induct generalizing y with
  | case1 first last ih =>
      cases y with
      | union first' last' =>
          obtain ⟨hfirst, hlast⟩ := List.append_inj' h rfl
          rw [ih hfirst, (List.cons.inj hlast).1]
      | _ => exact (hunion h rfl).elim
  | case2 x hx =>
      have hoperand : x.isOperand = true := by
        cases x with
        | union first last => exact absurd rfl (hx first last)
        | _ => rfl
      cases y with
      | union first' last' => exact (hunion h.symm hoperand).elim
      | _ => exact (List.cons.inj (operands_eq_singleton hoperand ▸ h)).1

theorem Grammatical.operands {x : Expression} (h : Grammatical x) :
    ∀ y ∈ x.operands, Grammatical y ∧ y.isOperand = true := by
  induction h with
  | word hword => simpa [Expression.operands, isOperand] using Grammatical.word hword
  | literal hquote hescape =>
      simpa [Expression.operands, isOperand] using Grammatical.literal hquote hescape
  | list hitems _ => simpa [Expression.operands, isOperand] using Grammatical.list hitems
  | subscript hname hsome hitems _ =>
      simpa [Expression.operands, isOperand] using Grammatical.subscript hname hsome hitems
  | union _ hlast hoperand ihfirst _ =>
      intro y hy
      rcases List.mem_append.1 hy with hy | hy
      · exact ihfirst y hy
      · rw [List.mem_singleton.1 hy]
        exact ⟨hlast, hoperand⟩

/-! ## One reading -/

/-- Where its text stands, with the end of an expression behind, no other expression does. -/
def Read (x : Expression) : Prop :=
  ∀ y, Grammatical y → ∀ cs ds, Ended cs → Ended ds → x.chars ++ cs = y.chars ++ ds →
    x = y ∧ cs = ds

/-- Where its text stands, also in a union, no other operand does. -/
def OperandRead (x : Expression) : Prop :=
  ∀ y, Grammatical y → y.isOperand = true → ∀ cs ds, Follows cs → Follows ds →
    x.chars ++ cs = y.chars ++ ds → x = y ∧ cs = ds

theorem read_of_operands {x : Expression} (h : ∀ y ∈ x.operands, OperandRead y) : Read x := by
  intro y hy cs ds hcs hds heq
  rw [chars_eq_join_operands x, chars_eq_join_operands y] at heq
  obtain ⟨a, as, hx⟩ := List.exists_cons_of_ne_nil x.operands_ne_nil
  obtain ⟨b, bs, hy'⟩ := List.exists_cons_of_ne_nil y.operands_ne_nil
  have hread : ∀ a ∈ x.operands, ∀ b ∈ y.operands, ∀ cs ds, Follows cs → Follows ds →
      a.chars ++ cs = b.chars ++ ds → a = b ∧ cs = ds := fun a ha b hb =>
    h a ha b (hy.operands b hb).1 (hy.operands b hb).2
  rw [hx, hy'] at heq hread
  obtain ⟨hoperands, hrest⟩ := join_inj_of_read (e := isEnd) (by simp [isOperandEnd])
    (by simp [isEnd]) (fun c hc => .inr hc) hread hcs hds heq
  exact ⟨operands_injective (hx.trans (hoperands.trans hy'.symm)), hrest⟩

theorem itemChars_inj {xs ys : List Expression} {cs ds : List Char}
    (hxs : ∀ x ∈ xs, Grammatical x ∧ Read x) (hys : ∀ y ∈ ys, Grammatical y)
    (h : join [',', ' '] (itemChars xs) ++ ']' :: cs =
      join [',', ' '] (itemChars ys) ++ ']' :: ds) : xs = ys ∧ cs = ds := by
  have hclose (x : Expression) (xs : List Expression) (hx : Grammatical x) (cs ds : List Char) :
      join [',', ' '] (itemChars (x :: xs)) ++ cs ≠ ']' :: ds := by
    rw [itemChars]
    cases xs with
    | nil => exact hx.append_ne_close cs ds
    | cons next xs =>
        rw [itemChars, join_cons_cons, List.append_assoc]
        exact hx.append_ne_close _ ds
  cases xs with
  | nil =>
      cases ys with
      | nil => exact ⟨rfl, (List.cons.inj h).2⟩
      | cons y ys => exact absurd h.symm (hclose y ys (hys y (by simp)) _ _)
  | cons x xs =>
      cases ys with
      | nil => exact absurd h (hclose x xs (hxs x (by simp)).1 _ _)
      | cons y ys =>
          rw [itemChars_eq_map, itemChars_eq_map] at h
          have hread : ∀ a ∈ x :: xs, ∀ b ∈ y :: ys, ∀ cs ds, Ended cs → Ended ds →
              a.chars ++ cs = b.chars ++ ds → a = b ∧ cs = ds := fun a ha b hb =>
            (hxs a ha).2 b (hys b hb)
          obtain ⟨hitems, hrest⟩ := join_inj_of_read (e := (· = ']')) (.inl rfl) (by decide)
            (fun c hc => .inr hc) hread (begins_cons (p := (· = ']')) rfl cs)
            (begins_cons (p := (· = ']')) rfl ds) h
          exact ⟨hitems, (List.cons.inj hrest).2⟩

theorem operandRead_word {text : String} (hword : Word text) : OperandRead (.word text) := by
  intro y hy hoperand cs ds hcs hds heq
  cases hy with
  | word hword' =>
      obtain ⟨rfl, hrest⟩ := hword.eq_of_append_eq hword' hcs.marked hds.marked heq
      exact ⟨rfl, hrest⟩
  | literal _ _ => exact absurd heq (hword.append_ne_cons (by decide) _ _)
  | list _ => exact absurd heq (hword.append_ne_cons (by decide) _ _)
  | subscript hname _ _ =>
      rw [chars, chars, List.append_assoc] at heq
      have hrest := (hword.eq_of_append_eq hname hcs.marked (begins_cons (by decide) _) heq).2
      exact absurd hrest hcs.ne_bracket
  | union _ _ _ => cases hoperand

theorem operandRead_literal {text : String} (hquote : '"' ∉ text.toList) :
    OperandRead (.literal text) := by
  intro y hy hoperand cs ds hcs hds heq
  cases hy with
  | word hword => exact absurd heq.symm (hword.append_ne_cons (by decide) _ _)
  | literal hquote' _ =>
      simp only [chars, List.cons_append, List.append_assoc, List.nil_append] at heq
      obtain ⟨htext, hrest⟩ := append_cons_inj_of_not_mem hquote hquote' (List.cons.inj heq).2
      exact ⟨congrArg literal (String.toList_inj.1 htext), hrest⟩
  | list _ => simp [chars] at heq
  | subscript hname _ _ =>
      rw [chars.eq_def (.subscript _ _), List.append_assoc] at heq
      exact absurd heq.symm (hname.append_ne_cons (by decide) _ _)
  | union _ _ _ => cases hoperand

theorem operandRead_list {items : List Expression} (hitems : ∀ x ∈ items, Grammatical x ∧ Read x) :
    OperandRead (.list items) := by
  intro y hy hoperand cs ds hcs hds heq
  cases hy with
  | word hword => exact absurd heq.symm (hword.append_ne_cons (by decide) _ _)
  | literal _ _ => simp [chars] at heq
  | list hitems' =>
      simp only [chars, List.cons_append, List.append_assoc, List.nil_append] at heq
      obtain ⟨rfl, hrest⟩ := itemChars_inj hitems hitems' (List.cons.inj heq).2
      exact ⟨rfl, hrest⟩
  | subscript hname _ _ =>
      rw [chars.eq_def (.subscript _ _), List.append_assoc] at heq
      exact absurd heq.symm (hname.append_ne_cons (by decide) _ _)
  | union _ _ _ => cases hoperand

theorem operandRead_subscript {name : String} {items : List Expression} (hname : Word name)
    (hitems : ∀ x ∈ items, Grammatical x ∧ Read x) : OperandRead (.subscript name items) := by
  intro y hy hoperand cs ds hcs hds heq
  rw [chars.eq_def (.subscript _ _), List.append_assoc] at heq
  cases hy with
  | word hword =>
      have hrest := (hname.eq_of_append_eq hword (begins_cons (by decide) _) hds.marked heq).2
      exact absurd hrest.symm hds.ne_bracket
  | literal _ _ => exact absurd heq (hname.append_ne_cons (by decide) _ _)
  | list _ => exact absurd heq (hname.append_ne_cons (by decide) _ _)
  | subscript hname' _ hitems' =>
      simp only [chars, List.cons_append, List.append_assoc, List.nil_append] at heq
      obtain ⟨rfl, hinside⟩ := hname.eq_of_append_eq hname' (begins_cons (by decide) _)
        (begins_cons (by decide) _) heq
      obtain ⟨rfl, hrest⟩ := itemChars_inj hitems hitems' (List.cons.inj hinside).2
      exact ⟨rfl, hrest⟩
  | union _ _ _ => cases hoperand

theorem Grammatical.operandRead {x : Expression} (h : Grammatical x) :
    ∀ y ∈ x.operands, OperandRead y := by
  have hitems {items : List Expression} (h : ∀ x ∈ items, Grammatical x)
      (ih : ∀ x ∈ items, ∀ y ∈ x.operands, OperandRead y) :
      ∀ x ∈ items, Grammatical x ∧ Read x := fun x hx => ⟨h x hx, read_of_operands (ih x hx)⟩
  induction h with
  | word hword => exact List.forall_mem_singleton.2 (operandRead_word hword)
  | literal hquote _ => exact List.forall_mem_singleton.2 (operandRead_literal hquote)
  | list h ih => exact List.forall_mem_singleton.2 (operandRead_list (hitems h ih))
  | subscript hname _ h ih =>
      exact List.forall_mem_singleton.2 (operandRead_subscript hname (hitems h ih))
  | union _ _ hoperand ihfirst ihlast =>
      rw [operands_eq_singleton hoperand] at ihlast
      exact List.forall_mem_append.2 ⟨ihfirst, ihlast⟩

/-- The grammar is unambiguous: a text is that of one expression at most. -/
theorem eq_of_chars_eq {x y : Expression} (hx : Grammatical x) (hy : Grammatical y)
    (h : x.chars = y.chars) : x = y :=
  (read_of_operands hx.operandRead y hy [] [] begins_nil begins_nil (congrArg (· ++ []) h)).1

end Expression

end Bindery.Python
