import Bindery.Proofs.Target.Identifiers
import Bindery.Proofs.Target.Lines

/-!
# Blocks of Python

A line that opens a class needs lines below it, and a mark needs a definition. `Complete` says that
both are there, `complete_write` that they are in all that is written of a statement.
-/

namespace Bindery.Python

open Naming Text

/-! ## Lines -/

/-- How many blanks a line begins with. -/
def indentation (line : String) : Nat :=
  (line.toList.takeWhile (· == ' ')).length

/-- A line without the blanks that it begins with. -/
def code (line : String) : List Char :=
  line.toList.dropWhile (· == ' ')

def OpensBlock (line : String) : Prop :=
  "class ".toList <+: code line

def IsPass (line : String) : Prop :=
  code line = "pass".toList

/-- A decorator of a method. -/
def IsMark (line : String) : Prop :=
  code line = "@overload".toList ∨ code line = "@staticmethod".toList

def IsDefinition (line : String) : Prop :=
  "def ".toList <+: code line

/-- The line defines a method, or it gives one name a type or a value. -/
def IsMemberLine (line : String) : Prop :=
  IsDefinition line ∨ ∃ word rest, ' ' ∉ word ∧
    (code line = word ++ ": ".toList ++ rest ∨ code line = word ++ " = ".toList ++ rest)

instance : DecidablePred OpensBlock :=
  fun line => inferInstanceAs (Decidable ("class ".toList <+: code line))

instance : DecidablePred IsPass :=
  fun line => inferInstanceAs (Decidable (code line = "pass".toList))

instance : DecidablePred IsMark :=
  fun line => inferInstanceAs
    (Decidable (code line = "@overload".toList ∨ code line = "@staticmethod".toList))

instance : DecidablePred IsDefinition :=
  fun line => inferInstanceAs (Decidable ("def ".toList <+: code line))

section

variable {line : String} {cs : List Char}

theorem code_of_head (h : line.toList.head? ≠ some ' ') : code line = line.toList := by
  rw [code]
  cases hline : line.toList with
  | nil => rfl
  | cons c rest =>
      have hc : (c == ' ') = false := by simpa [hline] using h
      simp [hc]

theorem code_of_indent (hline : line.toList = indent.toList ++ cs) (h : cs.head? ≠ some ' ') :
    code line = cs ∧ indentation line = 4 := by
  have hindent : indent.toList = [' ', ' ', ' ', ' '] := by decide
  rw [code, indentation, hline, hindent]
  cases cs with
  | nil => exact ⟨rfl, rfl⟩
  | cons c rest =>
      have hc : (c == ' ') = false := by simpa using h
      simp [hc]

theorem head?_word_append {word : List Char} (hne : word ≠ []) (hblank : ' ' ∉ word) :
    (word ++ cs).head? ≠ some ' ' := by
  obtain ⟨c, rest, rfl⟩ := List.exists_cons_of_ne_nil hne
  intro heq
  cases heq
  exact hblank List.mem_cons_self

theorem not_mark_of_blank (h : ' ' ∈ code line) : ¬ IsMark line := by
  rintro (hcode | hcode)
  · rw [hcode] at h
    exact absurd h (by decide)
  · rw [hcode] at h
    exact absurd h (by decide)

theorem not_pass_of_blank (h : ' ' ∈ code line) : ¬ IsPass line := by
  intro hcode
  rw [hcode] at h
  exact absurd h (by decide)

theorem IsMark.not_pass (h : IsMark line) : ¬ IsPass line := by
  intro hpass
  rw [IsMark, hpass] at h
  exact absurd h (by decide)

theorem opensBlock_of_begins (h : "class ".toList <+: line.toList) : OpensBlock line := by
  have hhead : line.toList.head? ≠ some ' ' := by
    obtain ⟨rest, hrest⟩ := h
    rw [← hrest]
    exact nofun
  rwa [OpensBlock, code_of_head hhead]

theorem OpensBlock.not_mark (h : OpensBlock line) : ¬ IsMark line := by
  obtain ⟨rest, hrest⟩ := h
  exact not_mark_of_blank (by rw [← hrest]; simp)

theorem not_opensBlock_of_head (h : (code line).head? ≠ some 'c') : ¬ OpensBlock line := by
  rintro ⟨rest, hrest⟩
  rw [← hrest] at h
  exact h rfl

/-- The first word of a line that opens a class. -/
theorem not_opensBlock_of_word {word rest : List Char} (hline : code line = word ++ ' ' :: rest)
    (hblank : ' ' ∉ word) (hword : word ≠ "class".toList) : ¬ OpensBlock line := by
  rintro ⟨behind, hbehind⟩
  have hsplit : "class".toList ++ ' ' :: behind = word ++ ' ' :: rest := by
    rw [← hline, ← hbehind]
    rfl
  exact hword (append_cons_inj_of_not_mem (by decide) hblank hsplit).1.symm

theorem blank_mem_of_isMemberLine (h : IsMemberLine line) : ' ' ∈ code line := by
  rcases h with ⟨rest, hrest⟩ | ⟨word, rest, -, hcode | hcode⟩
  · rw [← hrest]
    simp
  · rw [hcode]
    simp
  · rw [hcode]
    simp

end

/-! ## What follows a line -/

/-- The lines of a block. -/
structure Body (body : List String) : Prop where
  nonempty : body ≠ []
  indented : ∀ line ∈ body, indentation line = 4
  pass_iff : (∃ line ∈ body, IsPass line) ↔ ∀ line ∈ body, ¬ IsMemberLine line

/-- Behind a line there is what it needs. A block ends at an empty line. -/
structure Followed (line : String) (rest : List String) : Prop where
  block : OpensBlock line → ∃ body behind, rest = body ++ "" :: behind ∧ Body body
  definition : IsMark line → ∃ marks definition behind, rest = marks ++ definition :: behind ∧
    marks.length ≤ 1 ∧ (∀ mark ∈ marks, IsMark mark) ∧ IsDefinition definition ∧
    indentation definition = indentation line

/-- Every line has behind it what it needs. -/
def Complete (lines : List String) : Prop :=
  ∀ line rest, line :: rest <:+ lines → Followed line rest

theorem Followed.append {line : String} {rest : List String} (h : Followed line rest)
    (more : List String) : Followed line (rest ++ more) where
  block hopens := by
    obtain ⟨body, behind, rfl, hbody⟩ := h.block hopens
    exact ⟨body, behind ++ more, by simp, hbody⟩
  definition hmark := by
    obtain ⟨marks, definition, behind, rfl, hdefinition⟩ := h.definition hmark
    exact ⟨marks, definition, behind ++ more, by simp, hdefinition⟩

theorem followed_of_plain {line : String} (hblock : ¬ OpensBlock line) (hmark : ¬ IsMark line)
    (rest : List String) : Followed line rest :=
  ⟨fun h => absurd h hblock, fun h => absurd h hmark⟩

theorem complete_nil : Complete [] := by
  intro line rest h
  cases List.suffix_nil.1 h

theorem complete_cons {line : String} {rest : List String} (hline : Followed line rest)
    (hrest : Complete rest) : Complete (line :: rest) := by
  intro next later h
  rcases List.suffix_cons_iff.1 h with heq | h
  · cases heq
    exact hline
  · exact hrest next later h

theorem Complete.append {xs ys : List String} (hxs : Complete xs) (hys : Complete ys) :
    Complete (xs ++ ys) := by
  induction xs with
  | nil => exact hys
  | cons x xs ih =>
      have hfollowed := hxs x xs List.suffix_rfl
      exact complete_cons (hfollowed.append ys)
        (ih fun line rest h => hxs line rest (h.trans (List.suffix_cons x xs)))

theorem complete_flatMap {α : Type} {xs : List α} {f : α → List String}
    (h : ∀ x ∈ xs, Complete (f x)) : Complete (xs.flatMap f) := by
  induction xs with
  | nil => exact complete_nil
  | cons x xs ih =>
      obtain ⟨hx, hxs⟩ := List.forall_mem_cons.1 h
      rw [List.flatMap_cons]
      exact hx.append (ih hxs)

theorem complete_of_plain {lines : List String}
    (h : ∀ line ∈ lines, ¬ OpensBlock line ∧ ¬ IsMark line) : Complete lines := by
  intro line rest hsuffix
  obtain ⟨hblock, hmark⟩ := h line (hsuffix.subset List.mem_cons_self)
  exact followed_of_plain hblock hmark rest

/-! ## Members -/

/-- Lines that members are written in. -/
structure Inner (lines : List String) : Prop where
  complete : Complete lines
  plain : ∀ line ∈ lines, indentation line = 4 ∧ ¬ IsPass line
  member : lines ≠ [] → ∃ line ∈ lines, IsMemberLine line

theorem inner_nil : Inner [] :=
  ⟨complete_nil, nofun, fun h => absurd rfl h⟩

theorem Inner.append {xs ys : List String} (hxs : Inner xs) (hys : Inner ys) :
    Inner (xs ++ ys) where
  complete := hxs.complete.append hys.complete
  plain := List.forall_mem_append.2 ⟨hxs.plain, hys.plain⟩
  member hne := by
    by_cases hnil : xs = []
    · subst hnil
      exact hys.member hne
    · obtain ⟨line, hline, hmember⟩ := hxs.member hnil
      exact ⟨line, List.mem_append_left ys hline, hmember⟩

theorem inner_flatMap {α : Type} {xs : List α} {f : α → List String}
    (h : ∀ x ∈ xs, Inner (f x)) : Inner (xs.flatMap f) := by
  induction xs with
  | nil => exact inner_nil
  | cons x xs ih =>
      obtain ⟨hx, hxs⟩ := List.forall_mem_cons.1 h
      rw [List.flatMap_cons]
      exact hx.append (ih hxs)

/-- A line for one member. -/
theorem inner_singleton {line : String} (hindent : indentation line = 4)
    (hmember : IsMemberLine line) (hblock : ¬ OpensBlock line) : Inner [line] where
  complete := complete_cons (followed_of_plain hblock
    (not_mark_of_blank (blank_mem_of_isMemberLine hmember)) []) complete_nil
  plain := List.forall_mem_singleton.2
    ⟨hindent, not_pass_of_blank (blank_mem_of_isMemberLine hmember)⟩
  member _ := ⟨line, List.mem_singleton_self line, hmember⟩

theorem Inner.body {lines : List String} (h : Inner lines) (hne : lines ≠ []) : Body lines where
  nonempty := hne
  indented line hline := (h.plain line hline).1
  pass_iff := by
    refine iff_of_false ?_ ?_
    · rintro ⟨line, hline, hpass⟩
      exact (h.plain line hline).2 hpass
    · obtain ⟨line, hline, hmember⟩ := h.member hne
      exact fun hnone => hnone line hline hmember

theorem body_pass : Body [indent ++ "pass"] where
  nonempty := List.cons_ne_nil _ _
  indented := by decide
  pass_iff := by
    refine iff_of_true ⟨_, List.mem_singleton_self _, by decide⟩ ?_
    rw [List.forall_mem_singleton]
    exact fun hmember => absurd (blank_mem_of_isMemberLine hmember) (by decide)

/-- A block is complete with the line that opens it and the empty one that ends it. -/
theorem complete_block {head : String} {body : List String} (hopens : OpensBlock head)
    (hbody : Body body) (h : Complete body) : Complete ([head] ++ body ++ [""]) := by
  refine complete_cons ⟨fun _ => ⟨body, [], rfl, hbody⟩, fun hmark => ?_⟩ ?_
  · exact absurd hmark (OpensBlock.not_mark hopens)
  · exact h.append (complete_of_plain (by decide))

/-- A class is complete, with members or without. -/
theorem complete_suite {head : String} {lines : List String} (hopens : OpensBlock head)
    (h : Inner lines) : Complete ([head] ++ suite lines ++ [""]) := by
  rw [suite]
  split
  next => exact complete_block hopens body_pass (complete_of_plain (by decide))
  next hne => exact complete_block hopens (h.body (by simpa using hne)) h.complete

/-! ## What is written of a member -/

section

variable {name : String}

theorem blank_not_mem_escapeKeyword (h : IsWord name) : ' ' ∉ (escapeKeyword name).toList :=
  not_mem_escapeKeyword (by decide) h.noBlank

theorem blank_not_mem_member (h : IsWord name) : ' ' ∉ (identifiers.member name).toList :=
  not_mem_escapeKeyword (by decide) (not_mem_snakeCase (by decide) (by decide) h.noBlank)

theorem escapeKeyword_ne_empty (h : IsWord name) : escapeKeyword name ≠ "" := by
  rw [escapeKeyword]
  split
  · simp
  · exact h.nonempty

end

/-- The first word of a line tells that it opens no class. -/
theorem inner_of_word {line : String} {word rest : List Char}
    (hline : line.toList = indent.toList ++ (word ++ ' ' :: rest)) (hne : word ≠ [])
    (hblank : ' ' ∉ word) (hclass : word ≠ "class".toList)
    (hmember : code line = word ++ ' ' :: rest → IsMemberLine line) : Inner [line] := by
  obtain ⟨hcode, hindent⟩ := code_of_indent hline (head?_word_append hne hblank)
  exact inner_singleton hindent (hmember hcode) (not_opensBlock_of_word hcode hblank hclass)

/-- At most two marks stand in front of a method. -/
theorem inner_marks {marks : List String} {definition : String} (hlength : marks.length ≤ 2)
    (hmarks : ∀ mark ∈ marks, IsMark mark ∧ indentation mark = 4) (h : Inner [definition])
    (hdefinition : IsDefinition definition) : Inner (marks ++ [definition]) := by
  have hindent := (h.plain definition (List.mem_singleton_self definition)).1
  induction marks with
  | nil => exact h
  | cons mark marks ih =>
      obtain ⟨⟨hmark, hmarkIndent⟩, hmarks⟩ := List.forall_mem_cons.1 hmarks
      have hrest := ih (Nat.le_of_succ_le hlength) hmarks
      refine ⟨complete_cons ⟨fun hopens => absurd hmark (OpensBlock.not_mark hopens), fun _ => ?_⟩
        hrest.complete, ?_, ?_⟩
      · exact ⟨marks, definition, [], rfl, Nat.le_of_succ_le_succ hlength,
          fun other hother => (hmarks other hother).1, hdefinition, hindent.trans hmarkIndent.symm⟩
      · exact List.forall_mem_cons.2 ⟨⟨hmarkIndent, IsMark.not_pass hmark⟩, hrest.plain⟩
      · intro _
        obtain ⟨line, hline, hmember⟩ := hrest.member (by simp)
        exact ⟨line, List.mem_cons_of_mem mark hline, hmember⟩

/-- The lines of a member: one that gives a field a type, or marks and a definition. -/
theorem inner_writeMember {member : Member} (h : ∀ name ∈ member.names, IsWord name) :
    Inner (writeMember member) := by
  cases member with
  | field name isOptional type =>
      have hblank := blank_not_mem_member (h name List.mem_cons_self)
      have hline (text : String) : (indent ++ identifiers.member name ++ ": " ++ text).toList =
          indent.toList ++ ((identifiers.member name).toList ++ [':'] ++ ' ' :: text.toList) := by
        simp
      refine inner_of_word (hline _) (List.concat_ne_nil _ _) (by simpa using hblank) ?_ ?_
      · intro heq
        exact absurd (congrArg List.getLast? heq) (by simp)
      · exact fun hcode => .inr ⟨_, _, hblank, .inl (by simpa using hcode)⟩
  | method name isStatic isOverload arguments result =>
      have hline (text : String) : (indent ++ ("def " ++ text)).toList =
          indent.toList ++ ("def".toList ++ ' ' :: text.toList) := by
        simp
      have hdefinition (text : String) : IsDefinition (indent ++ ("def " ++ text)) := by
        rw [IsDefinition, (code_of_indent (hline text) (by simp)).1]
        simp
      have hinner (text : String) : Inner [indent ++ ("def " ++ text)] :=
        inner_of_word (hline text) (by decide) (by decide) (by decide)
          fun _ => .inl (hdefinition text)
      simp only [writeMember, String.append_assoc]
      refine inner_marks ?_ ?_ (hinner _) (hdefinition _)
      · cases isOverload <;> cases isStatic <;> decide
      · cases isOverload <;> cases isStatic <;> decide

theorem inner_constantLine {c : Constant} (h : IsWord c.name) : Inner [constantLine c] := by
  have hblank := blank_not_mem_escapeKeyword h
  have hne : (escapeKeyword c.name).toList ≠ [] := by
    simpa using escapeKeyword_ne_empty h
  have hclass : (escapeKeyword c.name).toList ≠ "class".toList := by
    intro heq
    rw [String.toList_inj] at heq
    exact absurd (heq ▸ escapeKeyword_not_mem c.name) (by decide)
  have hline (value : String) : (indent ++ escapeKeyword c.name ++ " = " ++ value).toList =
      indent.toList ++ ((escapeKeyword c.name).toList ++ ' ' :: ("= " ++ value).toList) := by
    simp
  have hinner (value : String) : Inner [indent ++ escapeKeyword c.name ++ " = " ++ value] :=
    inner_of_word (hline value) hne hblank hclass fun hcode =>
      .inr ⟨_, _, hblank, .inr (by simpa using hcode)⟩
  cases c with
  | named name => exact hinner _
  | flag name literal => exact hinner _

/-! ## What is written of a statement -/

theorem complete_singleton {line : String} (hblock : ¬ OpensBlock line) (hmark : ¬ IsMark line) :
    Complete [line] :=
  complete_of_plain (List.forall_mem_singleton.2 ⟨hblock, hmark⟩)

/-- A line that a word begins which is neither a mark nor opens a class. -/
theorem complete_of_word {word : String} (hmem : ' ' ∈ word.toList)
    (hblank : word.toList.head? ≠ some ' ') (hclass : word.toList.head? ≠ some 'c')
    (text : String) : Complete [word ++ text] := by
  have hhead : (word ++ text).toList.head? = word.toList.head? := by
    rw [String.toList_append, List.head?_append_of_ne_nil _ (List.ne_nil_of_mem hmem)]
  have hcode := code_of_head (hhead ▸ hblank)
  refine complete_singleton (not_opensBlock_of_head ?_) (not_mark_of_blank ?_)
  · rwa [hcode, hhead]
  · rw [hcode, String.toList_append]
    exact List.mem_append_left _ hmem

theorem complete_typeAlias {name : String} (h : IsWord name) (text : String) :
    Complete [entityIdentifier name ++ ": TypeAlias = " ++ text] := by
  have hblank : ' ' ∉ (entityIdentifier name).toList ++ [':'] := by
    simpa using not_mem_entityIdentifier (by decide) h.noBlank
  have hline : (entityIdentifier name ++ ": TypeAlias = " ++ text).toList =
      (entityIdentifier name).toList ++ [':'] ++ ' ' :: ("TypeAlias = " ++ text).toList := by
    simp
  have hhead : (entityIdentifier name ++ ": TypeAlias = " ++ text).toList.head? ≠ some ' ' := by
    rw [hline]
    exact head?_word_append (List.concat_ne_nil _ _) hblank
  have hcode := (code_of_head hhead).trans hline
  refine complete_singleton (not_opensBlock_of_word hcode hblank ?_) (not_mark_of_blank ?_)
  · intro heq
    exact absurd (congrArg List.getLast? heq) (by simp)
  · simp [hcode]

theorem complete_writeClass {name bases : String} {members : List Member}
    (h : ∀ name ∈ members.flatMap Member.names, IsWord name) :
    Complete (writeClass name bases members) := by
  refine complete_suite (opensBlock_of_begins (by simp)) (inner_flatMap fun member hmember => ?_)
  exact inner_writeMember (List.forall_mem_flatMap.1 h member hmember)

theorem complete_opaqueType (name : String) : Complete (opaqueType name) := by
  have hhead : OpensBlock ("class " ++ entityIdentifier name ++ ":") :=
    opensBlock_of_begins (by simp)
  have hbody : Body [indent ++ "\"\"\"Nominal marker type with no visible structure.\"\"\"",
      indent ++ "def __init__(self) -> NoReturn: ..."] := by
    refine ⟨List.cons_ne_nil _ _, by decide, iff_of_false (by decide) fun hnone => ?_⟩
    exact hnone _ (List.mem_cons_of_mem _ (List.mem_singleton_self _)) (.inl (by decide))
  exact complete_cons (followed_of_plain (by decide) (by decide) _)
    (complete_block hhead hbody (complete_of_plain (by decide)))

/-- Every statement is complete. -/
theorem complete_write {st : Statement} (hintroduced : ∀ name ∈ st.introduced, IsWord name)
    (hnames : ∀ name ∈ st.memberNames, IsWord name) : Complete (write st) := by
  cases st with
  | comment text => exact complete_of_word (by decide) (by decide) (by decide) text
  | blank => exact complete_singleton (by decide) (by decide)
  | words module names =>
      simp only [write, String.append_assoc]
      exact complete_of_word (by decide) (by decide) (by decide) _
  | entities module names =>
      simp only [write, String.append_assoc]
      exact complete_of_word (by decide) (by decide) (by decide) _
  | enumeration name isFlag constants =>
      refine complete_suite (opensBlock_of_begins (by simp)) ?_
      rw [List.map_eq_flatMap]
      exact inner_flatMap fun c hc => inner_constantLine (List.forall_mem_map.1 hnames c hc)
  | opaqueType name => exact complete_opaqueType name
  | typeAlias name type => exact complete_typeAlias (List.forall_mem_singleton.1 hintroduced) _
  | record name members => exact complete_writeClass hnames
  | objectClass name members => exact complete_writeClass hnames
  | interface name members => exact complete_writeClass hnames

end Bindery.Python
