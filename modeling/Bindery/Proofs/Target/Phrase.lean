import Bindery.Proofs.Text.Occurrences

/-!
# How TypeScript reads the text of a type

A `Phrase` is a tree of TypeScript's own grammar of types, as far as types are written in it, and
`Grammatical` says which trees its precedence allows: brackets belong to the operand before them, a
union has operands that are no functions, and a function reaches as far as it can.
`Phrase.eq_of_chars_eq`: no text can be read in two ways.
-/

namespace Bindery.TypeScript

open Text

/-- The characters that stand around the words of a type. -/
def isMark (c : Char) : Bool :=
  " ()<>[],:|=/*".toList.contains c

/-- Some characters, and no mark among them. Letters, digits and underscores of every script are
none. -/
structure Word (text : String) : Prop where
  nonempty : text ≠ ""
  chars : ∀ c ∈ text.toList, isMark c = false

instance (text : String) : Decidable (Word text) :=
  decidable_of_iff (text ≠ "" ∧ text.toList.all (fun c => isMark c = false) = true)
    ⟨fun h => ⟨h.1, fun c hc => of_decide_eq_true (List.all_eq_true.1 h.2 c hc)⟩,
      fun h => ⟨h.nonempty, List.all_eq_true.2 fun c hc => decide_eq_true (h.chars c hc)⟩⟩

/-- What stands directly behind an operand. -/
inductive Trailer where
  | brackets
  | note (text : String)
  deriving DecidableEq, Repr

inductive Phrase where
  | word (text : String) (trailers : List Trailer)
  | generic (name : String) (argument : Phrase) (trailers : List Trailer)
  /-- In parentheses. -/
  | group (inner : Phrase) (trailers : List Trailer)
  /-- Of an operand and the rest of the union. -/
  | union (first rest : Phrase)
  | function (parameters : List (String × Phrase)) (result : Phrase)
  deriving Repr

def Trailer.chars : Trailer → List Char
  | .brackets => ['[', ']']
  | .note text => ' ' :: '/' :: '*' :: ' ' :: (text.toList ++ [' ', '*', '/'])

/-- The first `*/` behind it ends a comment. -/
def Trailer.Closed : Trailer → Prop
  | .brackets => True
  | .note text => '*' ∉ text.toList

namespace Phrase

mutual
def chars : Phrase → List Char
  | .word text trailers => text.toList ++ trailers.flatMap Trailer.chars
  | .generic name argument trailers =>
    name.toList ++ '<' :: (argument.chars ++ '>' :: trailers.flatMap Trailer.chars)
  | .group inner trailers => '(' :: (inner.chars ++ ')' :: trailers.flatMap Trailer.chars)
  | .union first rest => first.chars ++ ' ' :: '|' :: ' ' :: rest.chars
  | .function parameters result =>
    '(' :: (Text.join [',', ' '] (parameterChars parameters) ++
      ')' :: ' ' :: '=' :: '>' :: ' ' :: result.chars)

def parameterChars : List (String × Phrase) → List (List Char)
  | [] => []
  | (name, x) :: rest => (name.toList ++ ':' :: ' ' :: x.chars) :: parameterChars rest
end

/-- Brackets may stand behind it, and it may stand in a union. -/
def isOperand : Phrase → Bool
  | .word .. => true
  | .generic .. => true
  | .group .. => true
  | .union .. => false
  | .function .. => false

def isFunction : Phrase → Bool
  | .function .. => true
  | _ => false

inductive Grammatical : Phrase → Prop where
  | word {text trailers} : Word text → (∀ m ∈ trailers, m.Closed) →
      Grammatical (.word text trailers)
  | generic {name argument trailers} : Word name → Grammatical argument →
      (∀ m ∈ trailers, m.Closed) → Grammatical (.generic name argument trailers)
  | group {inner trailers} : Grammatical inner → (∀ m ∈ trailers, m.Closed) →
      Grammatical (.group inner trailers)
  | union {first rest} : first.isOperand = true → Grammatical first → rest.isFunction = false →
      Grammatical rest → Grammatical (.union first rest)
  | function {parameters result} : (∀ a ∈ parameters, Word a.1) →
      (∀ a ∈ parameters, Grammatical a.2) → Grammatical result →
      Grammatical (.function parameters result)

end Phrase

/-! ## Words end at marks -/

abbrev Marked (cs : List Char) : Prop := Begins (isMark · = true) cs

theorem Word.ne_nil {text : String} (h : Word text) : text.toList ≠ [] :=
  fun hnil => h.nonempty (String.toList_eq_nil_iff.1 hnil)

theorem Word.exists_cons {text : String} (h : Word text) :
    ∃ c cs, text.toList = c :: cs ∧ isMark c = false := by
  obtain ⟨c, cs, hcs⟩ := List.exists_cons_of_ne_nil h.ne_nil
  exact ⟨c, cs, hcs, h.chars c (by simp [hcs])⟩

theorem Word.append_ne_cons {text : String} (h : Word text) {c : Char} (hc : isMark c = true)
    (cs ds : List Char) : text.toList ++ cs ≠ c :: ds := by
  obtain ⟨d, w, hw, hd⟩ := h.exists_cons
  rw [hw, List.cons_append]
  intro heq
  rw [(List.cons.inj heq).1, hc] at hd
  contradiction

/-- The word that a text begins with is all that stands before the first mark. -/
theorem Word.eq_of_append_eq {v w : String} {cs ds : List Char} (hv : Word v) (hw : Word w)
    (hcs : Marked cs) (hds : Marked ds) (h : v.toList ++ cs = w.toList ++ ds) :
    v = w ∧ cs = ds := by
  obtain ⟨hwords, hrest⟩ := append_inj_of_head hv.chars hw.chars hcs hds h
  exact ⟨String.toList_inj.1 hwords, hrest⟩

/-! ## What stands behind a type -/

/-- Nothing, or what ends a type that stands in another one. -/
abbrev Ended (cs : List Char) : Prop := Begins (fun c => c = ')' ∨ c = '>' ∨ c = ',') cs

/-- What stands behind an operand: the end of the type, or the rest of a union. -/
def Follows (cs : List Char) : Prop :=
  Ended cs ∨ ∃ ds, cs = ' ' :: '|' :: ds

theorem Ended.ne_blank {cs ds : List Char} (h : Ended cs) : cs ≠ ' ' :: ds :=
  h.ne_cons (by decide)

theorem Follows.marked {cs : List Char} (h : Follows cs) : Marked cs := by
  rcases h with h | ⟨ds, rfl⟩
  · intro c hc
    rcases h c hc with rfl | rfl | rfl <;> decide
  · exact begins_cons (by decide) _

theorem Follows.ne_trailer {cs ds : List Char} (h : Follows cs) (m : Trailer) :
    cs ≠ m.chars ++ ds := by
  rintro rfl
  rcases h with h | ⟨ds, hds⟩
  · cases m with
    | brackets => exact h.ne_cons (c := '[') (by decide) rfl
    | note text => exact h.ne_blank rfl
  · cases m with
    | brackets => simp [Trailer.chars] at hds
    | note text => simp [Trailer.chars] at hds

/-! ## Trailers -/

theorem marked_trailers {trailers : List Trailer} {cs : List Char} (h : Marked cs) :
    Marked (trailers.flatMap Trailer.chars ++ cs) := by
  cases trailers with
  | nil => exact h
  | cons m trailers =>
      cases m with
      | brackets => exact begins_cons (by decide) _
      | note text => exact begins_cons (by decide) _

theorem Trailer.eq_of_append_eq {m n : Trailer} {cs ds : List Char} (hm : m.Closed) (hn : n.Closed)
    (h : m.chars ++ cs = n.chars ++ ds) : m = n ∧ cs = ds := by
  cases m with
  | brackets =>
      cases n with
      | brackets => exact ⟨rfl, by simpa [chars] using h⟩
      | note text => simp [chars] at h
  | note text =>
      cases n with
      | brackets => simp [chars] at h
      | note text' =>
          have hstar (text : String) (h : '*' ∉ text.toList) : '*' ∉ text.toList ++ [' '] := by
            simpa using h
          have hinner : (text.toList ++ [' ']) ++ '*' :: '/' :: cs =
              (text'.toList ++ [' ']) ++ '*' :: '/' :: ds := by
            simpa [chars] using h
          obtain ⟨htext, hrest⟩ :=
            append_cons_inj_of_not_mem (hstar text hm) (hstar text' hn) hinner
          obtain rfl : text = text' := String.toList_inj.1 (List.append_cancel_right htext)
          exact ⟨rfl, by simpa using hrest⟩

theorem trailers_eq_of_append_eq {ms ns : List Trailer} {cs ds : List Char}
    (hms : ∀ m ∈ ms, m.Closed) (hns : ∀ n ∈ ns, n.Closed) (hcs : Follows cs) (hds : Follows ds)
    (h : ms.flatMap Trailer.chars ++ cs = ns.flatMap Trailer.chars ++ ds) : ms = ns ∧ cs = ds := by
  induction ms generalizing ns with
  | nil =>
      cases ns with
      | nil => exact ⟨rfl, h⟩
      | cons n ns =>
          rw [List.flatMap_cons, List.append_assoc] at h
          exact absurd h (hcs.ne_trailer n)
  | cons m ms ih =>
      cases ns with
      | nil =>
          rw [List.flatMap_cons, List.append_assoc] at h
          exact absurd h.symm (hds.ne_trailer m)
      | cons n ns =>
          obtain ⟨hm, hms⟩ := List.forall_mem_cons.1 hms
          obtain ⟨hn, hns'⟩ := List.forall_mem_cons.1 hns
          rw [List.flatMap_cons, List.flatMap_cons, List.append_assoc, List.append_assoc] at h
          obtain ⟨rfl, hlater⟩ := Trailer.eq_of_append_eq hm hn h
          obtain ⟨rfl, hrest⟩ := ih hms hns' hlater
          exact ⟨rfl, hrest⟩

theorem Follows.trailers_ne_angle {trailers : List Trailer} {cs ds : List Char} (h : Follows cs) :
    trailers.flatMap Trailer.chars ++ cs ≠ '<' :: ds := by
  cases trailers with
  | cons m trailers => cases m <;> simp [Trailer.chars]
  | nil =>
      rcases h with h | ⟨es, rfl⟩
      · exact h.ne_cons (by decide)
      · simp

/-! ## How phrases begin -/

namespace Phrase

theorem parameterChars_eq_map (parameters : List (String × Phrase)) :
    parameterChars parameters = parameters.map fun a => a.1.toList ++ ':' :: ' ' :: a.2.chars := by
  induction parameters with
  | nil => rfl
  | cons a parameters ih => simp [parameterChars, ih]

/-- What stands behind the word that a phrase begins with: a mark, but no colon. -/
abbrev Continues (cs : List Char) : Prop := Begins (fun c => isMark c = true ∧ c ≠ ':') cs

theorem continues_trailers (trailers : List Trailer) :
    Continues (trailers.flatMap Trailer.chars) := by
  cases trailers with
  | nil => exact begins_nil
  | cons m trailers =>
      cases m with
      | brackets => exact begins_cons (by decide) _
      | note text => exact begins_cons (by decide) _

/-- A phrase begins with a parenthesis or with a word. -/
theorem Grammatical.begins {x : Phrase} (h : Grammatical x) :
    (∃ cs, x.chars = '(' :: cs) ∨
      ∃ w cs, Word w ∧ x.chars = w.toList ++ cs ∧ Continues cs := by
  induction h with
  | @word text trailers hword _ =>
      exact .inr ⟨text, _, hword, by rw [chars], continues_trailers trailers⟩
  | @generic name argument trailers hname _ _ _ =>
      exact .inr ⟨name, _, hname, by rw [chars], begins_cons (by decide) _⟩
  | group _ _ _ => exact .inl ⟨_, by rw [chars]⟩
  | @union first rest _ _ _ _ hfirst _ =>
      rcases hfirst with ⟨cs, hcs⟩ | ⟨w, cs, hw, hcs, hcontinues⟩
      · exact .inl ⟨_, by rw [chars, hcs, List.cons_append]⟩
      · exact .inr ⟨w, _, hw, by rw [chars, hcs, List.append_assoc],
          hcontinues.append (begins_cons (by decide) _)⟩
  | function _ _ _ _ _ => exact .inl ⟨_, by rw [chars]⟩

theorem Grammatical.append_ne_close {x : Phrase} (h : Grammatical x) (cs ds : List Char) :
    x.chars ++ cs ≠ ')' :: ds := by
  rcases h.begins with ⟨es, hes⟩ | ⟨w, es, hw, hes, -⟩
  · rw [hes]
    simp
  · rw [hes, List.append_assoc]
    exact hw.append_ne_cons (by decide) _ _

/-- No phrase begins like a parameter. -/
theorem Grammatical.append_ne_parameter {x : Phrase} (h : Grammatical x) {name : String}
    (hname : Word name) (cs ds : List Char) :
    x.chars ++ ')' :: cs ≠ name.toList ++ ':' :: ds := by
  intro heq
  have hcolon : Marked (':' :: ds) := begins_cons (by decide) ds
  rcases h.begins with ⟨es, hes⟩ | ⟨w, es, hw, hes, hcontinues⟩
  · rw [hes] at heq
    exact hname.append_ne_cons (by decide) _ _ heq.symm
  · have hend : Continues (es ++ ')' :: cs) := hcontinues.append (begins_cons (by decide) cs)
    rw [hes, List.append_assoc] at heq
    have hrest := (hw.eq_of_append_eq hname (fun c hc => (hend c hc).1) hcolon heq).2
    exact (hend ':' (by rw [hrest]; rfl)).2 rfl

/-! ## Parameters -/

/-- All parameters but the first. -/
def laterChars (parameters : List (String × Phrase)) : List Char :=
  parameters.flatMap fun a => ',' :: ' ' :: (a.1.toList ++ ':' :: ' ' :: a.2.chars)

theorem join_parameterChars_cons (a : String × Phrase) (parameters : List (String × Phrase)) :
    join [',', ' '] (parameterChars (a :: parameters)) =
      a.1.toList ++ ':' :: ' ' :: (a.2.chars ++ laterChars parameters) := by
  have hjoin (p : List Char) (ps : List (List Char)) :
      join [',', ' '] (p :: ps) = p ++ ps.flatMap fun q => ',' :: ' ' :: q := by
    induction ps generalizing p with
    | nil => simp [join]
    | cons q ps ih => rw [join_cons_cons, ih]; rfl
  rw [parameterChars_eq_map, List.map_cons, hjoin, List.flatMap_map, laterChars]
  simp

/-! ## One reading -/

/-- Where its text stands, with the end of a type behind, no other phrase does. -/
def TypeRead (x : Phrase) : Prop :=
  ∀ y, Grammatical y → ∀ cs ds, Ended cs → Ended ds → x.chars ++ cs = y.chars ++ ds →
    x = y ∧ cs = ds

/-- Where its text stands, also in a union, no other operand does. -/
def OperandRead (x : Phrase) : Prop :=
  ∀ y, Grammatical y → y.isOperand = true → ∀ cs ds, Follows cs → Follows ds →
    x.chars ++ cs = y.chars ++ ds → x = y ∧ cs = ds

theorem operandRead_word {text : String} {trailers : List Trailer} (hword : Word text)
    (htrailers : ∀ m ∈ trailers, m.Closed) : OperandRead (.word text trailers) := by
  intro y hy hoperand cs ds hcs hds heq
  have hmarked := @marked_trailers trailers _ hcs.marked
  cases hy with
  | @word text' trailers' hword' htrailers' =>
      rw [chars, chars, List.append_assoc, List.append_assoc] at heq
      obtain ⟨rfl, hrest⟩ :=
        hword.eq_of_append_eq hword' hmarked (marked_trailers hds.marked) heq
      obtain ⟨rfl, hend⟩ := trailers_eq_of_append_eq htrailers htrailers' hcs hds hrest
      exact ⟨rfl, hend⟩
  | @generic name argument trailers' hname _ _ =>
      rw [chars, chars, List.append_assoc, List.append_assoc, List.cons_append] at heq
      have hrest := (hword.eq_of_append_eq hname hmarked (begins_cons (by decide) _) heq).2
      exact absurd hrest hcs.trailers_ne_angle
  | group _ _ =>
      rw [chars, chars, List.append_assoc] at heq
      exact absurd heq (hword.append_ne_cons (by decide) _ _)
  | union _ _ _ _ => cases hoperand
  | function _ _ _ => cases hoperand

theorem operandRead_generic {name : String} {argument : Phrase} {trailers : List Trailer}
    (hname : Word name) (hargument : TypeRead argument) (htrailers : ∀ m ∈ trailers, m.Closed) :
    OperandRead (.generic name argument trailers) := by
  intro y hy hoperand cs ds hcs hds heq
  cases hy with
  | @word text trailers' hword _ =>
      rw [chars, chars, List.append_assoc, List.append_assoc, List.cons_append] at heq
      have hrest := (hname.eq_of_append_eq hword (begins_cons (by decide) _)
        (marked_trailers hds.marked) heq).2
      exact absurd hrest.symm hds.trailers_ne_angle
  | @generic name' argument' trailers' hname' hargument' htrailers' =>
      rw [chars, chars, List.append_assoc, List.append_assoc, List.cons_append,
        List.cons_append, List.append_assoc, List.append_assoc, List.cons_append,
        List.cons_append] at heq
      obtain ⟨rfl, hinside⟩ :=
        hname.eq_of_append_eq hname' (begins_cons (by decide) _) (begins_cons (by decide) _) heq
      obtain ⟨rfl, hrest⟩ := hargument argument' hargument' _ _ (begins_cons (by decide) _)
        (begins_cons (by decide) _) (List.cons.inj hinside).2
      obtain ⟨rfl, hend⟩ :=
        trailers_eq_of_append_eq htrailers htrailers' hcs hds (List.cons.inj hrest).2
      exact ⟨rfl, hend⟩
  | group _ _ =>
      rw [chars, chars, List.append_assoc] at heq
      exact absurd heq (hname.append_ne_cons (by decide) _ _)
  | union _ _ _ _ => cases hoperand
  | function _ _ _ => cases hoperand

theorem operandRead_group {inner : Phrase} {trailers : List Trailer} (hinner : TypeRead inner)
    (htrailers : ∀ m ∈ trailers, m.Closed) : OperandRead (.group inner trailers) := by
  intro y hy hoperand cs ds hcs hds heq
  cases hy with
  | @word text trailers' hword _ =>
      rw [chars, chars, List.append_assoc] at heq
      exact absurd heq.symm (hword.append_ne_cons (by decide) _ _)
  | @generic name argument trailers' hname _ _ =>
      rw [chars, chars, List.append_assoc] at heq
      exact absurd heq.symm (hname.append_ne_cons (by decide) _ _)
  | @group inner' trailers' hinner' htrailers' =>
      rw [chars, chars, List.cons_append, List.cons_append, List.append_assoc, List.append_assoc,
        List.cons_append, List.cons_append] at heq
      obtain ⟨rfl, hrest⟩ := hinner inner' hinner' _ _ (begins_cons (by decide) _)
        (begins_cons (by decide) _) (List.cons.inj heq).2
      obtain ⟨rfl, hend⟩ :=
        trailers_eq_of_append_eq htrailers htrailers' hcs hds (List.cons.inj hrest).2
      exact ⟨rfl, hend⟩
  | union _ _ _ _ => cases hoperand
  | function _ _ _ => cases hoperand

/-- A parenthesis that begins an operand does not begin parameters. -/
theorem Grammatical.append_ne_function {x : Phrase} (h : Grammatical x)
    (hoperand : x.isOperand = true) {parameters : List (String × Phrase)} {result : Phrase}
    (hnames : ∀ a ∈ parameters, Word a.1) (cs ds : List Char) :
    x.chars ++ cs ≠ (Phrase.function parameters result).chars ++ ds := by
  intro heq
  cases h with
  | word hword _ =>
      rw [chars, chars, List.append_assoc] at heq
      exact hword.append_ne_cons (by decide) _ _ heq
  | generic hname _ _ =>
      rw [chars, chars, List.append_assoc] at heq
      exact hname.append_ne_cons (by decide) _ _ heq
  | group hinner _ =>
      rw [chars, chars, List.cons_append, List.cons_append, List.append_assoc,
        List.append_assoc] at heq
      have hinside := (List.cons.inj heq).2
      cases parameters with
      | nil => exact hinner.append_ne_close _ _ hinside
      | cons a parameters =>
          rw [join_parameterChars_cons, List.append_assoc, List.cons_append] at hinside
          exact hinner.append_ne_parameter (hnames a (by simp)) _ _ hinside
  | union _ _ _ _ => cases hoperand
  | function _ _ _ => cases hoperand

theorem typeRead_of_operand {x : Phrase} (h : Grammatical x) (hoperand : x.isOperand = true)
    (hx : OperandRead x) : TypeRead x := by
  intro y hy cs ds hcs hds heq
  cases hy with
  | word hword htrailers =>
      exact hx _ (.word hword htrailers) rfl cs ds (.inl hcs) (.inl hds) heq
  | generic hname hargument htrailers =>
      exact hx _ (.generic hname hargument htrailers) rfl cs ds (.inl hcs) (.inl hds) heq
  | group hinner htrailers =>
      exact hx _ (.group hinner htrailers) rfl cs ds (.inl hcs) (.inl hds) heq
  | union hfirst hgrammatical _ _ =>
      rw [chars, List.append_assoc] at heq
      have hrest := (hx _ hgrammatical hfirst _ _ (.inl hcs) (.inr ⟨_, rfl⟩) heq).2
      exact absurd hrest hcs.ne_blank
  | function hnames _ _ => exact absurd heq (h.append_ne_function hoperand hnames cs ds)

theorem typeRead_union {first rest : Phrase} (hoperand : first.isOperand = true)
    (hgrammatical : Grammatical first) (hfirst : OperandRead first) (hrest : TypeRead rest) :
    TypeRead (.union first rest) := by
  intro y hy cs ds hcs hds heq
  have hnot (y : Phrase) (hy : Grammatical y) (hy' : y.isOperand = true)
      (heq : (union first rest).chars ++ cs = y.chars ++ ds) : False := by
    rw [chars, List.append_assoc] at heq
    have hend := (hfirst y hy hy' _ _ (.inr ⟨_, rfl⟩) (.inl hds) heq).2
    exact hds.ne_blank hend.symm
  cases hy with
  | word hword htrailers => exact (hnot _ (.word hword htrailers) rfl heq).elim
  | generic hname hargument htrailers =>
      exact (hnot _ (.generic hname hargument htrailers) rfl heq).elim
  | group hinner htrailers => exact (hnot _ (.group hinner htrailers) rfl heq).elim
  | @union first' rest' hoperand' hgrammatical' _ hrest' =>
      rw [chars, chars, List.append_assoc, List.append_assoc] at heq
      obtain ⟨rfl, hlater⟩ := hfirst first' hgrammatical' hoperand' _ _ (.inr ⟨_, rfl⟩)
        (.inr ⟨_, rfl⟩) heq
      obtain ⟨rfl, hend⟩ := hrest rest' hrest' cs ds hcs hds (by simpa using hlater)
      exact ⟨rfl, hend⟩
  | function hnames _ _ =>
      rw [chars, List.append_assoc] at heq
      exact absurd heq (hgrammatical.append_ne_function hoperand hnames _ ds)

theorem ended_laterChars (parameters : List (String × Phrase)) (cs : List Char) :
    Ended (laterChars parameters ++ ')' :: cs) := by
  cases parameters with
  | nil => exact begins_cons (by decide) cs
  | cons a parameters => exact begins_cons (by decide) _

/-- Parameters, behind the first name of which a colon stands. -/
theorem parameter_eq_of_append_eq {a b : String × Phrase} {cs ds : List Char} (ha : Word a.1)
    (hread : TypeRead a.2) (hb : Word b.1) (hgrammatical : Grammatical b.2) (hcs : Ended cs)
    (hds : Ended ds)
    (h : a.1.toList ++ ':' :: ' ' :: (a.2.chars ++ cs) =
      b.1.toList ++ ':' :: ' ' :: (b.2.chars ++ ds)) : a = b ∧ cs = ds := by
  obtain ⟨hname, hrest⟩ :=
    ha.eq_of_append_eq hb (begins_cons (by decide) _) (begins_cons (by decide) _) h
  obtain ⟨htype, hend⟩ := hread b.2 hgrammatical cs ds hcs hds (by simpa using hrest)
  exact ⟨Prod.ext hname htype, hend⟩

theorem laterChars_inj {as bs : List (String × Phrase)} {cs ds : List Char}
    (has : ∀ a ∈ as, Word a.1 ∧ TypeRead a.2) (hbs : ∀ b ∈ bs, Word b.1 ∧ Grammatical b.2)
    (h : laterChars as ++ ')' :: cs = laterChars bs ++ ')' :: ds) : as = bs ∧ cs = ds := by
  induction as generalizing bs with
  | nil =>
      cases bs with
      | nil => exact ⟨rfl, (List.cons.inj h).2⟩
      | cons b bs => simp [laterChars] at h
  | cons a as ih =>
      cases bs with
      | nil => simp [laterChars] at h
      | cons b bs =>
          obtain ⟨⟨haword, haread⟩, has⟩ := List.forall_mem_cons.1 has
          obtain ⟨⟨hbword, hbgrammatical⟩, hbs'⟩ := List.forall_mem_cons.1 hbs
          have hinner : a.1.toList ++ ':' :: ' ' :: (a.2.chars ++ (laterChars as ++ ')' :: cs)) =
              b.1.toList ++ ':' :: ' ' :: (b.2.chars ++ (laterChars bs ++ ')' :: ds)) := by
            simpa [laterChars] using h
          obtain ⟨rfl, hlater⟩ := parameter_eq_of_append_eq haword haread hbword hbgrammatical
            (ended_laterChars as cs) (ended_laterChars bs ds) hinner
          obtain ⟨rfl, hend⟩ := ih has hbs' hlater
          exact ⟨rfl, hend⟩

theorem parameterChars_inj {as bs : List (String × Phrase)} {cs ds : List Char}
    (has : ∀ a ∈ as, Word a.1 ∧ TypeRead a.2) (hbs : ∀ b ∈ bs, Word b.1 ∧ Grammatical b.2)
    (h : join [',', ' '] (parameterChars as) ++ ')' :: cs =
      join [',', ' '] (parameterChars bs) ++ ')' :: ds) : as = bs ∧ cs = ds := by
  have hclose (cs ds : List Char) (a : String × Phrase) (as : List (String × Phrase))
      (ha : Word a.1) : join [',', ' '] (parameterChars (a :: as)) ++ cs ≠ ')' :: ds := by
    rw [join_parameterChars_cons, List.append_assoc]
    exact ha.append_ne_cons (by decide) _ _
  cases as with
  | nil =>
      cases bs with
      | nil => exact ⟨rfl, (List.cons.inj h).2⟩
      | cons b bs => exact absurd h.symm (hclose _ _ b bs (hbs b (by simp)).1)
  | cons a as =>
      cases bs with
      | nil => exact absurd h (hclose _ _ a as (has a (by simp)).1)
      | cons b bs =>
          obtain ⟨⟨haword, haread⟩, has⟩ := List.forall_mem_cons.1 has
          obtain ⟨⟨hbword, hbgrammatical⟩, hbs'⟩ := List.forall_mem_cons.1 hbs
          rw [join_parameterChars_cons, join_parameterChars_cons, List.append_assoc,
            List.append_assoc] at h
          obtain ⟨rfl, hlater⟩ := parameter_eq_of_append_eq haword haread hbword hbgrammatical
            (ended_laterChars as cs) (ended_laterChars bs ds) (by simpa using h)
          obtain ⟨rfl, hend⟩ := laterChars_inj has hbs' hlater
          exact ⟨rfl, hend⟩

theorem typeRead_function {parameters : List (String × Phrase)} {result : Phrase}
    (hparameters : ∀ a ∈ parameters, Word a.1 ∧ TypeRead a.2) (hresult : TypeRead result) :
    TypeRead (.function parameters result) := by
  intro y hy cs ds hcs hds heq
  have hnames : ∀ a ∈ parameters, Word a.1 := fun a ha => (hparameters a ha).1
  have hnot (y : Phrase) (hy : Grammatical y) (hy' : y.isOperand = true) (ds : List Char)
      (heq : (Phrase.function parameters result).chars ++ cs = y.chars ++ ds) : False :=
    hy.append_ne_function hy' hnames ds cs heq.symm
  cases hy with
  | word hword htrailers => exact (hnot _ (.word hword htrailers) rfl ds heq).elim
  | generic hname hargument htrailers =>
      exact (hnot _ (.generic hname hargument htrailers) rfl ds heq).elim
  | group hinner htrailers => exact (hnot _ (.group hinner htrailers) rfl ds heq).elim
  | union hoperand hgrammatical _ _ =>
      rw [chars.eq_def (.union _ _), List.append_assoc] at heq
      exact (hnot _ hgrammatical hoperand _ heq).elim
  | @function parameters' result' hnames' hgrammatical' hresult' =>
      rw [chars, chars, List.cons_append, List.cons_append, List.append_assoc, List.append_assoc,
        List.cons_append, List.cons_append] at heq
      obtain ⟨rfl, hrest⟩ := parameterChars_inj hparameters
        (fun b hb => ⟨hnames' b hb, hgrammatical' b hb⟩) (List.cons.inj heq).2
      obtain ⟨rfl, hend⟩ := hresult result' hresult' cs ds hcs hds (by simpa using hrest)
      exact ⟨rfl, hend⟩

theorem Grammatical.read {x : Phrase} (h : Grammatical x) :
    TypeRead x ∧ (x.isOperand = true → OperandRead x) := by
  have hoperand {x : Phrase} (h : Grammatical x) (hx : x.isOperand = true) (hread : OperandRead x) :
      TypeRead x ∧ (x.isOperand = true → OperandRead x) :=
    ⟨typeRead_of_operand h hx hread, fun _ => hread⟩
  induction h with
  | word hword htrailers =>
      exact hoperand (.word hword htrailers) rfl (operandRead_word hword htrailers)
  | generic hname hargument htrailers ih =>
      exact hoperand (.generic hname hargument htrailers) rfl
        (operandRead_generic hname ih.1 htrailers)
  | group hinner htrailers ih =>
      exact hoperand (.group hinner htrailers) rfl (operandRead_group ih.1 htrailers)
  | union hfirst hgrammatical _ _ ihfirst ihrest =>
      exact ⟨typeRead_union hfirst hgrammatical (ihfirst.2 hfirst) ihrest.1, nofun⟩
  | function hnames _ _ ihparameters ihresult =>
      exact ⟨typeRead_function (fun a ha => ⟨hnames a ha, (ihparameters a ha).1⟩) ihresult.1, nofun⟩

/-- The grammar is unambiguous: a text is that of one phrase at most. -/
theorem eq_of_chars_eq {x y : Phrase} (hx : Grammatical x) (hy : Grammatical y)
    (h : x.chars = y.chars) : x = y := by
  exact (hx.read.1 y hy [] [] begins_nil begins_nil (congrArg (· ++ []) h)).1

end Phrase

end Bindery.TypeScript
