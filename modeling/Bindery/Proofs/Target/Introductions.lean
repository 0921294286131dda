import Bindery.Proofs.Target.Python
import Bindery.Proofs.Target.TypeScript
import Bindery.Proofs.Text.Occurrences

/-!
# The identifiers that lines introduce

How each language introduces identifiers at the top level of a unit, line by line.
`Introduces.read`: where no identifier holds a character that ends one, they are read off the lines.
-/

namespace Bindery

open Text

/-- A character behind an identifier. -/
def endsToken (c : Char) : Bool :=
  " ,:(\x7d".toList.contains c

/-- Some characters, and none that ends an identifier. -/
structure IsToken (name : String) : Prop where
  nonempty : name ≠ ""
  chars : ∀ c ∈ name.toList, endsToken c = false

instance (name : String) : Decidable (IsToken name) :=
  decidable_of_iff (name ≠ "" ∧ name.toList.all (fun c => endsToken c = false) = true)
    ⟨fun h => ⟨h.1, fun c hc => of_decide_eq_true (List.all_eq_true.1 h.2 c hc)⟩,
      fun h => ⟨h.nonempty, List.all_eq_true.2 fun c hc => decide_eq_true (h.chars c hc)⟩⟩

/-! ## Reading identifiers -/

def firstToken (cs : List Char) : String :=
  String.ofList (cs.takeWhile fun c => !endsToken c)

def tokens (cs : List Char) : List String :=
  ((cs.splitOnP endsToken).filter (· ≠ [])).map String.ofList

/-- What stands behind a text at the front of another. -/
def behind? (lead : String) (cs : List Char) : Option (List Char) :=
  lead.toList.isPrefixOf? cs

@[simp] theorem behind?_append (lead : String) (cs : List Char) :
    behind? lead (lead.toList ++ cs) = some cs :=
  List.isPrefixOf?_eq_some_iff_append_eq.2 rfl

namespace IsToken

variable {name : String} (h : IsToken name)

include h

theorem not_mem {c : Char} (hc : endsToken c = true) : c ∉ name.toList := by
  intro hmem
  rw [h.chars c hmem] at hc
  cases hc

theorem firstToken_append {c : Char} (hc : endsToken c = true) (cs : List Char) :
    firstToken (name.toList ++ c :: cs) = name := by
  rw [firstToken, takeWhile_append_of_head h.chars (begins_cons hc cs), String.ofList_toList]

theorem tokens_eq : tokens name.toList = [name] := by
  have hname : name.toList ≠ [] := by simpa using h.nonempty
  simp [tokens, List.splitOnP_eq_singleton h.chars, hname]

end IsToken

@[simp] theorem tokens_nil : tokens [] = [] := by
  simp [tokens]

theorem tokens_append_cons {c : Char} (hc : endsToken c = true) (cs ds : List Char) :
    tokens (cs ++ c :: ds) = tokens cs ++ tokens ds := by
  simp [tokens, List.splitOnP_append_cons cs ds hc]

theorem tokens_joined {names : List String} (h : ∀ name ∈ names, IsToken name) :
    tokens (joined ", " names).toList = names := by
  have hjoin : tokens (join ", ".toList (names.map String.toList)) = names := by
    induction names with
    | nil => exact tokens_nil
    | cons name names ih =>
        obtain ⟨hname, hnames⟩ := List.forall_mem_cons.1 h
        cases names with
        | nil => exact hname.tokens_eq
        | cons next names =>
            have hblank (cs : List Char) : tokens (' ' :: cs) = tokens cs :=
              tokens_append_cons (by decide) [] cs
            rw [List.map_cons, List.map_cons, join_cons_cons, ← List.map_cons]
            change tokens (name.toList ++ ',' :: ' ' :: join _ (List.map _ _)) = _
            rw [tokens_append_cons (by decide), hname.tokens_eq, hblank, ih hnames]
            rfl
  rw [joined, String.toList_ofList, hjoin]

/-! ## Lines one after the other -/

/-- The identifiers that lines introduce, if `R` says which ones each line does. -/
inductive Introduces (R : String → List String → Prop) : List String → List String → Prop where
  | nil : Introduces R [] []
  | cons {line lines names later} : R line names → Introduces R lines later →
      Introduces R (line :: lines) (names ++ later)

namespace Introduces

variable {R : String → List String → Prop} {lines more names later : List String}

theorem append (h : Introduces R lines names) (hmore : Introduces R more later) :
    Introduces R (lines ++ more) (names ++ later) := by
  induction h with
  | nil => exact hmore
  | cons hline _ ih =>
      rw [List.append_assoc]
      exact .cons hline ih

theorem flatMap {α : Type} {xs : List α} {f g : α → List String}
    (h : ∀ x ∈ xs, Introduces R (f x) (g x)) : Introduces R (xs.flatMap f) (xs.flatMap g) := by
  induction xs with
  | nil => exact .nil
  | cons x xs ih =>
      obtain ⟨hx, hxs⟩ := List.forall_mem_cons.1 h
      rw [List.flatMap_cons, List.flatMap_cons]
      exact hx.append (ih hxs)

theorem of_nothing (h : ∀ line ∈ lines, R line []) : Introduces R lines [] := by
  induction lines with
  | nil => exact .nil
  | cons line lines ih =>
      obtain ⟨hline, hlines⟩ := List.forall_mem_cons.1 h
      exact .cons hline (ih hlines)

theorem singleton {line : String} (h : R line names) : Introduces R [line] names := by
  simpa using Introduces.cons h .nil

/-- The first line of a block introduces what the block does. -/
theorem block {head : String} (hhead : R head names) (h : ∀ line ∈ lines, R line []) :
    Introduces R (head :: lines) names := by
  simpa using Introduces.cons hhead (of_nothing h)

/-- What can be read off one line can be read off all of them. -/
theorem read {identifiersOn : String → List String} (h : Introduces R lines names)
    (hread : ∀ {line introduced}, R line introduced → (∀ name ∈ introduced, IsToken name) →
      identifiersOn line = introduced)
    (hnames : ∀ name ∈ names, IsToken name) : lines.flatMap identifiersOn = names := by
  induction h with
  | nil => rfl
  | cons hline _ ih =>
      obtain ⟨hfirst, hlater⟩ := List.forall_mem_append.1 hnames
      rw [List.flatMap_cons, hread hline hfirst, ih hlater]

end Introduces

/-! ## Statements -/

namespace Statement

/-- The words of the language that a statement takes. -/
def takenWords : Statement → List String
  | .words _ names => names
  | _ => []

/-- All identifiers that a statement introduces at the top level of its unit. -/
def identifiers (st : Statement) : List String :=
  st.takenWords ++ st.introduced.map entityIdentifier

theorem identifiers_words (module : String) (names : List String) :
    (words module names).identifiers = names :=
  List.append_nil names

/-- The modules that a statement imports from. -/
def modules : Statement → List String
  | .words module _ => [module]
  | .entities module _ => [module]
  | _ => []

end Statement

namespace TypeScript

/-- The lines of a declaration unit. What is indented stands inside a declaration, and an export of
names that are there already introduces nothing. -/
inductive IntroducesOn : String → List String → Prop where
  | blank : IntroducesOn "" []
  | comment (text) : IntroducesOn ("// " ++ text) []
  | remark (text) : ¬ "*/".toList <:+: text.toList → IntroducesOn ("/** " ++ text ++ " */") []
  | imported (names module) :
      IntroducesOn ("import \x7b " ++ joined ", " names ++ " \x7d from \"" ++ module ++ "\";") names
  | exported (names) : IntroducesOn ("export \x7b " ++ joined ", " names ++ " \x7d;") []
  | constEnum (name) : IntroducesOn ("export const enum " ++ name ++ " \x7b") [name]
  | declaredEnum (name) : IntroducesOn ("export declare enum " ++ name ++ " \x7b\x7d") [name]
  | typeAlias (name text) : IntroducesOn ("export type " ++ name ++ " = " ++ text ++ ";") [name]
  | record (name) : IntroducesOn ("export type " ++ name ++ " = \x7b") [name]
  | objectClass (name) : IntroducesOn ("export class " ++ name ++ " \x7b") [name]
  | interface (name) : IntroducesOn ("export interface " ++ name ++ " \x7b") [name]
  | inner (text) : IntroducesOn ("  " ++ text) []
  | close : IntroducesOn "\x7d" []
  | closeStatement : IntroducesOn "\x7d;" []

/-- What stands in front of the identifier of a declaration. -/
def leads : List String := [
  "export const enum ", "export declare enum ", "export type ", "export class ",
  "export interface "]

def identifiersOn (line : String) : List String :=
  let cs := line.toList
  (behind? "import \x7b " cs).elim
    (leads.findSome? fun lead => (behind? lead cs).map firstToken).toList
    fun names => tokens (names.takeWhile (!· == '\x7d'))

theorem identifiersOn_of_lead {lead name : String} (hlead : lead ∈ leads) (h : IsToken name)
    {rest : String} {cs : List Char} (hrest : rest.toList = ' ' :: cs) :
    identifiersOn (lead ++ name ++ rest) = [name] := by
  have hname := h.firstToken_append (c := ' ') (by decide) cs
  simp only [leads, List.mem_cons, List.not_mem_nil, or_false] at hlead
  rcases hlead with rfl | rfl | rfl | rfl | rfl <;>
    simp [identifiersOn, leads, behind?, List.isPrefixOf?, hrest, hname]

theorem identifiersOn_imported {names : List String} (h : ∀ name ∈ names, IsToken name)
    (rest : String) :
    identifiersOn ("import \x7b " ++ joined ", " names ++ " \x7d from \"" ++ rest) = names := by
  have hbrace : ∀ c ∈ (joined ", " names).toList ++ [' '], (c == '\x7d') = false := by
    refine List.forall_mem_append.2 ⟨fun c hc => ?_, List.forall_mem_singleton.2 rfl⟩
    rcases mem_joined hc with hsep | ⟨name, hname, hchar⟩
    · exact beq_false_of_ne fun heq => absurd (heq ▸ hsep) (by decide)
    · exact beq_false_of_ne fun heq => (h name hname).not_mem (by decide) (heq ▸ hchar)
  have hline : ("import \x7b " ++ joined ", " names ++ " \x7d from \"" ++ rest).toList =
      "import \x7b ".toList ++
        ((joined ", " names).toList ++ [' '] ++ '\x7d' :: (" from \"".toList ++ rest.toList)) := by
    simp
  have hnames := takeWhile_append_of_head (p := (· == '\x7d')) hbrace
    (begins_cons (beq_self_eq_true '\x7d') (" from \"".toList ++ rest.toList))
  rw [identifiersOn, hline, behind?_append, Option.elim_some, hnames,
    tokens_append_cons (by decide), tokens_joined h, tokens_nil, List.append_nil]

theorem identifiersOn_of_head {line : String} {c : Char} {cs : List Char}
    (hline : line.toList = c :: cs) (hc : c ≠ 'e' ∧ c ≠ 'i') : identifiersOn line = [] := by
  simp [identifiersOn, leads, behind?, List.isPrefixOf?, hline, Ne.symm hc.1, Ne.symm hc.2]

theorem identifiersOn_of_introducesOn {line : String} {names : List String}
    (h : IntroducesOn line names) (hnames : ∀ name ∈ names, IsToken name) :
    identifiersOn line = names := by
  cases h with
  | blank => rfl
  | comment text => exact identifiersOn_of_head (String.toList_append ..) (by decide)
  | remark text _ =>
      have hline : ("/** " ++ text ++ " */").toList =
          '/' :: ("** ".toList ++ text.toList ++ " */".toList) := by
        simp
      exact identifiersOn_of_head hline (by decide)
  | imported names module =>
      have himport := identifiersOn_imported hnames (module ++ "\";")
      rwa [← String.append_assoc] at himport
  | exported names =>
      simp [identifiersOn, leads, behind?, List.isPrefixOf?]
  | constEnum name =>
      exact identifiersOn_of_lead (by decide) (List.forall_mem_singleton.1 hnames) rfl
  | declaredEnum name =>
      exact identifiersOn_of_lead (by decide) (List.forall_mem_singleton.1 hnames) rfl
  | typeAlias name text =>
      have hrest : (" = " ++ text ++ ";").toList =
          ' ' :: ("= ".toList ++ text.toList ++ [';']) := by
        simp
      have halias : identifiersOn ("export type " ++ name ++ (" = " ++ text ++ ";")) = [name] :=
        identifiersOn_of_lead (by decide) (List.forall_mem_singleton.1 hnames) hrest
      simpa [String.append_assoc] using halias
  | record name =>
      exact identifiersOn_of_lead (by decide) (List.forall_mem_singleton.1 hnames) rfl
  | objectClass name =>
      exact identifiersOn_of_lead (by decide) (List.forall_mem_singleton.1 hnames) rfl
  | interface name =>
      exact identifiersOn_of_lead (by decide) (List.forall_mem_singleton.1 hnames) rfl
  | inner text => exact identifiersOn_of_head (String.toList_append ..) (by decide)
  | close => rfl
  | closeStatement => rfl

theorem introducesOn_writeMember (member : Member) : IntroducesOn (writeMember member) [] := by
  cases member <;>
    simp only [writeMember, String.append_assoc] <;>
    exact .inner _

theorem introducesOn_constantLine (c : Constant) : IntroducesOn (constantLine c) [] := by
  cases c <;>
    simp only [constantLine, String.append_assoc] <;>
    exact .inner _

/-- A declaration introduces its name, whatever stands between its braces. -/
theorem introduces_braces {head last name : String} {lines : List String}
    (hhead : IntroducesOn head [name]) (h : ∀ line ∈ lines, IntroducesOn line [])
    (hlast : IntroducesOn last []) :
    Introduces IntroducesOn ([head] ++ lines ++ [last]) [name] :=
  .block hhead (List.forall_mem_append.2 ⟨h, List.forall_mem_singleton.2 hlast⟩)

theorem introduces_write (st : Statement) : Introduces IntroducesOn (write st) st.identifiers := by
  have hinner {members : List Member} : ∀ line ∈ members.map writeMember, IntroducesOn line [] :=
    List.forall_mem_map.2 fun member _ => introducesOn_writeMember member
  cases st with
  | comment text => exact .singleton (.comment text)
  | blank => exact .singleton .blank
  | words module names =>
      rw [Statement.identifiers_words]
      exact .singleton (.imported names module)
  | entities module names =>
      exact .block (.imported _ module) (List.forall_mem_singleton.2 (.exported _))
  | enumeration name isFlag constants =>
      exact introduces_braces (.constEnum _)
        (List.forall_mem_map.2 fun c _ => introducesOn_constantLine c) .closeStatement
  | opaqueType name =>
      have hremark := IntroducesOn.remark "Using an empty enum to express a nominal type"
        (by decide +kernel)
      simp only [String.reduceAppend] at hremark
      exact .cons hremark (.singleton (.declaredEnum _))
  | typeAlias name type => exact .singleton (.typeAlias _ _)
  | record name members => exact introduces_braces (.record _) hinner .closeStatement
  | objectClass name members => exact introduces_braces (.objectClass _) hinner .close
  | interface name members => exact introduces_braces (.interface _) hinner .close

end TypeScript

namespace Python

/-- The lines of stubs. What is indented stands inside a class. -/
inductive IntroducesOn : String → List String → Prop where
  | blank : IntroducesOn "" []
  | comment (text) : IntroducesOn ("# " ++ text) []
  | decorator (text) : ' ' ∉ text.toList → IntroducesOn ("@" ++ text) []
  | imported (module names) : ' ' ∉ module.toList →
      IntroducesOn ("from " ++ module ++ " import " ++ joined ", " names) names
  | objectClass (name) : IntroducesOn ("class " ++ name ++ ":") [name]
  | derivedClass (name base) : IntroducesOn ("class " ++ name ++ "(" ++ base ++ "):") [name]
  | typeAlias (name text) : IntroducesOn (name ++ ": TypeAlias = " ++ text) [name]
  | inner (text) : IntroducesOn (indent ++ text) []

/-- The names in a line that imports some. -/
def importedOn (cs : List Char) : List String :=
  ((behind? "from " cs).bind fun rest => behind? " import " (rest.dropWhile (· != ' '))).elim []
    tokens

def identifiersOn (line : String) : List String :=
  let cs := line.toList
  if (firstToken cs).toList ++ ": TypeAlias = ".toList <+: cs then [firstToken cs]
  else (behind? "class " cs).elim (importedOn cs) fun head => [firstToken head]

/-- A blank ends the first token, so there is no colon behind it. -/
theorem identifiersOn_of_blank {line : String} {word rest : List Char}
    (hline : line.toList = word ++ ' ' :: rest) (hword : ∀ c ∈ word, endsToken c = false) :
    identifiersOn line = (behind? "class " line.toList).elim (importedOn line.toList)
      fun head => [firstToken head] := by
  have hfirst : (firstToken line.toList).toList = word := by
    rw [firstToken, hline, String.toList_ofList]
    exact takeWhile_append_of_head hword (begins_cons (by decide) rest)
  rw [identifiersOn]
  refine if_neg fun hpre => ?_
  rw [hfirst, hline, List.prefix_append_right_inj] at hpre
  exact absurd (List.cons_prefix_cons.1 hpre).1 (by decide)

theorem identifiersOn_class {name : String} (h : IsToken name) {rest : String} {c : Char}
    {cs : List Char} (hrest : rest.toList = c :: cs) (hc : endsToken c = true) :
    identifiersOn ("class " ++ name ++ rest) = [name] := by
  have hline : ("class " ++ name ++ rest).toList =
      "class".toList ++ ' ' :: (name.toList ++ c :: cs) := by
    simp [hrest]
  have hhead : behind? "class " ("class".toList ++ ' ' :: (name.toList ++ c :: cs)) =
      some (name.toList ++ c :: cs) :=
    behind?_append "class " _
  rw [identifiersOn_of_blank hline (by simp [endsToken]), hline, hhead, Option.elim_some,
    h.firstToken_append hc]

theorem identifiersOn_imported {module : String} (hmodule : ' ' ∉ module.toList)
    {names : List String} (h : ∀ name ∈ names, IsToken name) :
    identifiersOn ("from " ++ module ++ " import " ++ joined ", " names) = names := by
  have hline : ("from " ++ module ++ " import " ++ joined ", " names).toList =
      "from".toList ++ ' ' :: (module.toList ++
        (" import ".toList ++ (joined ", " names).toList)) := by
    simp
  have hclass (cs : List Char) : behind? "class " ("from".toList ++ ' ' :: cs) = none := rfl
  have hfrom (cs : List Char) : behind? "from " ("from".toList ++ ' ' :: cs) = some cs :=
    behind?_append "from " cs
  have hbehind : (module.toList ++ (" import ".toList ++ (joined ", " names).toList)).dropWhile
      (· != ' ') = " import ".toList ++ (joined ", " names).toList := by
    rw [List.dropWhile_append_of_pos]
    · rfl
    · intro c hc
      exact bne_iff_ne.2 fun heq => hmodule (heq ▸ hc)
  rw [identifiersOn_of_blank hline (by simp [endsToken]), hline, hclass, Option.elim_none,
    importedOn, hfrom, Option.bind_some, hbehind, behind?_append, Option.elim_some,
    tokens_joined h]

theorem identifiersOn_of_introducesOn {line : String} {names : List String}
    (h : IntroducesOn line names) (hnames : ∀ name ∈ names, IsToken name) :
    identifiersOn line = names := by
  cases h with
  | blank => rfl
  | comment text =>
      have hline : ("# " ++ text).toList = ['#'] ++ ' ' :: text.toList := by simp
      rw [identifiersOn_of_blank hline (by simp [endsToken]), hline]
      rfl
  | decorator text hblank =>
      have hline : ("@" ++ text).toList = '@' :: text.toList := by simp
      rw [identifiersOn, if_neg, hline]
      · rfl
      · intro hpre
        have hmem : ' ' ∈ ("@" ++ text).toList := hpre.subset (by simp)
        simp [hline, hblank] at hmem
  | imported module names hmodule => exact identifiersOn_imported hmodule hnames
  | objectClass name =>
      exact identifiersOn_class (List.forall_mem_singleton.1 hnames) rfl (by decide)
  | derivedClass name base =>
      have hrest : ("(" ++ base ++ "):").toList = '(' :: (base.toList ++ "):".toList) := by simp
      have hclass := identifiersOn_class (List.forall_mem_singleton.1 hnames) hrest (by decide)
      simpa [String.append_assoc] using hclass
  | typeAlias name text =>
      have hname := List.forall_mem_singleton.1 hnames
      have hline : (name ++ ": TypeAlias = " ++ text).toList =
          name.toList ++ ':' :: (" TypeAlias = ".toList ++ text.toList) := by
        simp
      rw [identifiersOn, hline, hname.firstToken_append (by decide), if_pos]
      exact ⟨text.toList, by simp⟩
  | inner text =>
      have hline : (indent ++ text).toList = [] ++ ' ' :: ("   ".toList ++ text.toList) := by
        simp [indent]
      rw [identifiersOn_of_blank hline nofun, hline]
      rfl

theorem introducesOn_writeMember (member : Member) :
    ∀ line ∈ writeMember member, IntroducesOn line [] := by
  cases member with
  | field name isOptional type =>
      simp only [writeMember, String.append_assoc]
      exact List.forall_mem_singleton.2 (.inner _)
  | method name isStatic isOverload arguments result =>
      simp only [writeMember, String.append_assoc, List.forall_mem_append,
        List.forall_mem_singleton]
      refine ⟨⟨?_, ?_⟩, .inner _⟩
      · cases isOverload with
        | false => exact List.forall_mem_nil _
        | true => exact List.forall_mem_singleton.2 (.inner _)
      · cases isStatic with
        | false => exact List.forall_mem_nil _
        | true => exact List.forall_mem_singleton.2 (.inner _)

theorem introducesOn_constantLine (c : Constant) : IntroducesOn (constantLine c) [] := by
  cases c <;>
    simp only [constantLine, String.append_assoc] <;>
    exact .inner _

theorem introducesOn_suite {lines : List String} (h : ∀ line ∈ lines, IntroducesOn line []) :
    ∀ line ∈ suite lines, IntroducesOn line [] := by
  rw [suite]
  split
  · exact List.forall_mem_singleton.2 (.inner "pass")
  · exact h

/-- A class introduces its name, whatever stands in it. -/
theorem introduces_class {head name : String} (hhead : IntroducesOn head [name])
    {lines : List String} (h : ∀ line ∈ lines, IntroducesOn line []) :
    Introduces IntroducesOn ([head] ++ suite lines ++ [""]) [name] :=
  .block hhead (List.forall_mem_append.2 ⟨introducesOn_suite h, List.forall_mem_singleton.2 .blank⟩)

theorem introduces_write (st : Statement) (hmodules : ∀ module ∈ st.modules, ' ' ∉ module.toList) :
    Introduces IntroducesOn (write st) st.identifiers := by
  have hinner {members : List Member} :
      ∀ line ∈ members.flatMap writeMember, IntroducesOn line [] :=
    List.forall_mem_flatMap.2 fun member _ => introducesOn_writeMember member
  cases st with
  | comment text => exact .singleton (.comment text)
  | blank => exact .singleton .blank
  | words module names =>
      rw [Statement.identifiers_words]
      exact .singleton (.imported module names (hmodules module List.mem_cons_self))
  | entities module names =>
      exact .singleton (.imported module _ (hmodules module List.mem_cons_self))
  | enumeration name isFlag constants =>
      exact introduces_class (.derivedClass _ _)
        (List.forall_mem_map.2 fun c _ => introducesOn_constantLine c)
  | opaqueType name =>
      have hbody : ∀ line ∈ [indent ++ "\"\"\"Nominal marker type with no visible structure.\"\"\"",
          indent ++ "def __init__(self) -> NoReturn: ...", ""], IntroducesOn line [] := by
        simp only [List.forall_mem_cons]
        exact ⟨.inner _, .inner _, .blank, List.forall_mem_nil _⟩
      exact .cons (.decorator "final" (by decide)) (.block (.objectClass _) hbody)
  | typeAlias name type => exact .singleton (.typeAlias _ _)
  | record name members =>
      have hhead := IntroducesOn.derivedClass (entityIdentifier name) "TypedDict"
      exact introduces_class (by simpa [String.append_assoc] using hhead) hinner
  | objectClass name members =>
      have hhead := IntroducesOn.objectClass (entityIdentifier name)
      exact introduces_class (by simpa using hhead) hinner
  | interface name members =>
      have hhead := IntroducesOn.derivedClass (entityIdentifier name) "Protocol"
      exact introduces_class (by simpa [String.append_assoc] using hhead) hinner

end Python

end Bindery
