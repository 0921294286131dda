import Bindery.Proofs.Target.Names
import Bindery.Proofs.Target.Notes
import Bindery.Proofs.Target.Recovery
import Bindery.Proofs.Target.TypeScript
import Bindery.Proofs.Text.Lines

/-!
# Texts on one line

`oneLine_print`: if there is no line feed in the names of a type, there is none in its text. Nor
does a target put one in the lines that it writes.
-/

namespace Bindery

open Naming Text

theorem oneLine_entityIdentifier {name : String} (h : OneLine name) :
    OneLine (entityIdentifier name) :=
  not_mem_entityIdentifier (by decide) h

theorem oneLine_joinPath {path : List String} (h : ∀ part ∈ path, OneLine part) :
    OneLine (joinPath path) :=
  oneLine_joined (by decide) h

theorem oneLine_templateDetail {path : List String} (h : ∀ part ∈ path, OneLine part)
    (arguments : List TypeExpr) : OneLine (Resolver.templateDetail (joinPath path) arguments) := by
  have hjson : '\n' ∉ (Json.list (TypeExpr.listToJson arguments)).compactText :=
    fun hmem => absurd ((TypeExpr.spelt_listToJson arguments).controlFree _ hmem) (by decide)
  have hpath : '\n' ∉ (joinPath path).toList := oneLine_joinPath h
  rw [OneLine, toList_templateDetail]
  simp [hjson, hpath]

theorem NamingConvention.oneLine_apply (naming : NamingConvention) {name : String}
    (h : OneLine name) : OneLine (naming.apply name) := by
  cases naming with
  | camelCase => exact not_mem_camelCase (by decide) (by decide) h
  | snakeCase => exact not_mem_snakeCase (by decide) (by decide) h
  | verbatim => exact h

/-- No line feed comes with the words and the signs of a target. -/
structure Mapping.AddsNoLine (m : Mapping) : Prop where
  primitive : ∀ entry ∈ m.primitives, OneLine entry.2
  render : ∀ entry ∈ m.templates, ∀ arguments, (∀ a ∈ arguments, OneLine a) →
    OneLine (entry.2.render arguments)
  declared : ∀ name, OneLine name → OneLine (m.declared name)
  readonly : ∀ inner, OneLine inner → OneLine (m.readonly inner)
  function : ∀ arguments result, (∀ a ∈ arguments, OneLine a.1 ∧ OneLine a.2) → OneLine result →
    OneLine (m.function arguments result)
  annotate : ∀ inner modifiers, OneLine inner → (∀ x ∈ modifiers, OneLine x) →
    OneLine (m.annotate inner modifiers)
  placeholder : ∀ detail, OneLine detail → OneLine (m.placeholder detail)

namespace TypeExpr

variable {m : Mapping} (hm : m.AddsNoLine)

include hm

theorem oneLine_print_guarded {x : Shape} (h : OneLine (m.print x)) (isConst : Bool) :
    OneLine (m.print (x.guarded isConst)) := by
  rw [Mapping.print_guarded]
  split
  · exact hm.readonly _ h
  · exact h

theorem oneLine_print_noted {x : Shape} {modifiers : List String} (h : OneLine (m.print x))
    (hmodifiers : ∀ word ∈ modifiers, OneLine word) : OneLine (m.print (x.noted modifiers)) := by
  rw [Mapping.print_noted]
  split
  · exact h
  · exact hm.annotate _ _ h hmodifiers

theorem oneLine_print_nameShape {fullName : String} (h : OneLine fullName) (s : Spec) :
    OneLine (m.print (nameShape s m fullName)) := by
  rw [nameShape]
  split
  · exact hm.declared _ h
  split
  next hprimitive =>
    obtain ⟨text, htext⟩ := Option.isSome_iff_exists.1 hprimitive
    rw [Mapping.print, htext]
    exact hm.primitive _ (mem_of_lookup_eq_some htext)
  · exact hm.placeholder _ h

theorem oneLine_print (s : Spec) {t : TypeExpr} (h : ∀ name ∈ t.names, OneLine name) :
    OneLine (m.print (t.shape s m)) := by
  induction t with
  | name path isConst indirection =>
      have hname := oneLine_print_nameShape hm (oneLine_joinPath h) s
      refine oneLine_print_guarded hm (oneLine_print_noted hm hname ?_) isConst
      obtain ⟨pointer, reference, rvalueReference⟩ := indirection
      cases pointer <;> cases reference <;> cases rvalueReference <;> decide
  | template path arguments isConst ih =>
      rw [names, List.forall_mem_append, namesAll_eq_flatMap, List.forall_mem_flatMap] at h
      have hdetail := hm.placeholder _ (oneLine_templateDetail h.1 arguments)
      refine oneLine_print_guarded hm ?_ isConst
      rw [Resolver.print_templateShape]
      split
      next => exact hdetail
      next rule hrule =>
        split
        · refine hm.render _ (mem_of_lookup_eq_some hrule) _ ?_
          rw [shapeAll_eq_map, List.map_map]
          exact List.forall_mem_map.2 fun a ha => ih a ha (h.2 a ha)
        · exact hdetail
  | function arguments result isConst isNoExcept hargs hresult =>
      rw [names, List.forall_mem_append, namesArguments_eq_flatMap, List.forall_mem_flatMap] at h
      refine oneLine_print_guarded hm (oneLine_print_noted hm ?_ ?_) isConst
      · rw [Mapping.print, Mapping.printArguments_eq_map, shapeArguments_eq_map, List.map_map]
        refine hm.function _ _ (List.forall_mem_map.2 fun a ha => ?_) (hresult h.2)
        obtain ⟨hname, htype⟩ := List.forall_mem_cons.1 (h.1 a ha)
        exact ⟨m.naming.oneLine_apply hname, hargs a ha htype⟩
      · cases isNoExcept <;> decide

end TypeExpr

/-! ## Python -/

namespace Python

theorem oneLine_stringLiteral {text : String} (h : OneLine text) :
    OneLine (stringLiteral text) := by
  obtain ⟨quote, hquote, htext⟩ := exists_stringLiteral_eq text
  have hne : '\n' ≠ quote := by
    rcases hquote with rfl | rfl
    · decide
    · decide
  rw [OneLine, htext, List.mem_cons, List.mem_append, List.mem_flatMap, List.mem_singleton]
  rintro (heq | ⟨c, hc, hletter⟩ | heq)
  · exact hne heq
  · rw [letter] at hletter
    split_ifs at hletter
    · simp at hletter
    · simp [hne] at hletter
    · exact h (List.mem_singleton.1 hletter ▸ hc)
  · exact hne heq

theorem addsNoLine_mapping : mapping.AddsNoLine where
  primitive := by decide
  render entry hentry arguments h := by
    have hhead : OneLine (arguments.head?.getD "") := by
      cases arguments with
      | nil => decide
      | cons a rest => exact h a List.mem_cons_self
    simp only [mapping, Mapping.unary, List.mem_cons, List.not_mem_nil, or_false] at hentry
    rcases hentry with rfl | rfl | rfl
    · exact .between (by decide) hhead (by decide)
    · exact oneLine_append.2 ⟨hhead, by decide⟩
    · exact hhead
  declared name h := oneLine_entityIdentifier h
  readonly inner h := .between (by decide) h (by decide)
  function arguments result harguments h := by
    have htypes : ∀ part ∈ arguments.map Prod.snd, OneLine part :=
      List.forall_mem_map.2 fun a ha => (harguments a ha).2
    have hinputs : OneLine (joined ", " (arguments.map Prod.snd)) :=
      oneLine_joined (by decide) htypes
    exact .between (.between (by decide) hinputs (by decide)) h (by decide)
  annotate inner modifiers h hmodifiers := by
    have hnote : OneLine (stringLiteral (joined " " modifiers)) :=
      oneLine_stringLiteral (oneLine_joined (by decide) hmodifiers)
    exact .between (.between (by decide) h (by decide)) hnote (by decide)
  placeholder detail h := by
    have hnote : OneLine (stringLiteral ("unknown: " ++ detail)) :=
      oneLine_stringLiteral (oneLine_append.2 ⟨by decide, h⟩)
    exact .between (by decide) hnote (by decide)

/-- Escaping adds underscores only. -/
theorem not_mem_escapeKeyword {x : Char} {name : String} (hx : x ≠ '_') (h : x ∉ name.toList) :
    x ∉ (escapeKeyword name).toList := by
  rw [escapeKeyword]
  split
  · simpa [hx] using h
  · exact h

theorem oneLine_escapeKeyword {name : String} (h : OneLine name) :
    OneLine (escapeKeyword name) :=
  not_mem_escapeKeyword (by decide) h

theorem oneLine_member {name : String} (h : OneLine name) : OneLine (identifiers.member name) :=
  oneLine_escapeKeyword (NamingConvention.snakeCase.oneLine_apply h)

theorem oneLine_writeMember {member : Member} (hnames : ∀ name ∈ member.names, OneLine name)
    (hshapes : ∀ x ∈ member.shapes, OneLine (mapping.print x)) :
    ∀ line ∈ writeMember member, OneLine line := by
  have hindent : OneLine indent := by decide
  have hcomma : OneLine ", " := by decide
  cases member with
  | field name isOptional type =>
      have hname := oneLine_member (hnames name List.mem_cons_self)
      have htype := hshapes type List.mem_cons_self
      refine List.forall_mem_singleton.2 (oneLine_append.2 ⟨?_, ?_⟩)
      · exact .between hindent hname (by decide)
      · cases isOptional with
        | false => exact htype
        | true => exact .between (by decide) htype (by decide)
  | method name isStatic isOverload arguments result =>
      obtain ⟨hname, harguments⟩ := List.forall_mem_cons.1 hnames
      obtain ⟨htypes, hresult⟩ := List.forall_mem_append.1 hshapes
      have hparameter : ∀ part ∈ (mapping.printArguments arguments).map
          (fun a => escapeKeyword a.1 ++ ": " ++ a.2), OneLine part := by
        rw [Mapping.printArguments_eq_map, List.map_map]
        refine List.forall_mem_map.2 fun a ha => ?_
        have hargument := oneLine_member (harguments a.1 (List.mem_map_of_mem ha))
        exact .between hargument (by decide) (htypes a.2 (List.mem_map_of_mem ha))
      have hreceiver : ∀ part ∈ (if isStatic then [] else ["self"]), OneLine part := by
        cases isStatic <;> decide
      have hparameters := oneLine_joined hcomma (List.forall_mem_append.2 ⟨hreceiver, hparameter⟩)
      refine List.forall_mem_append.2 ⟨List.forall_mem_append.2 ⟨?_, ?_⟩, ?_⟩
      · cases isOverload <;> decide
      · cases isStatic <;> decide
      · simp only [List.forall_mem_singleton, oneLine_append]
        have hmember := oneLine_member hname
        have houtput := hresult result (List.mem_singleton_self _)
        exact ⟨⟨⟨⟨⟨⟨⟨hindent, by decide⟩, hmember⟩, by decide⟩, hparameters⟩, by decide⟩, houtput⟩,
          by decide⟩

theorem oneLine_suite {lines : List String} (h : ∀ line ∈ lines, OneLine line) :
    ∀ line ∈ suite lines, OneLine line := by
  rw [suite]
  split
  · decide
  · exact h

theorem oneLine_constantLine {c : Constant} (hname : OneLine c.name)
    (hliteral : ∀ literal, c.literal? = some literal → OneLine literal) :
    OneLine (constantLine c) := by
  have hfront : OneLine (indent ++ identifiers.enumMember c.name ++ " = ") :=
    .between (by decide) (oneLine_escapeKeyword hname) (by decide)
  cases c with
  | named name => exact oneLine_append.2 ⟨hfront, oneLine_stringLiteral hname⟩
  | flag name literal => exact oneLine_append.2 ⟨hfront, hliteral literal rfl⟩

theorem oneLine_writeClass {name bases : String} {members : List Member} (hname : OneLine name)
    (hbases : OneLine bases) (hnames : ∀ name ∈ members.flatMap Member.names, OneLine name)
    (hshapes : ∀ x ∈ members.flatMap Member.shapes, OneLine (mapping.print x)) :
    ∀ line ∈ writeClass name bases members, OneLine line := by
  have hhead : OneLine ("class " ++ entityIdentifier name ++ bases ++ ":") :=
    oneLine_append.2 ⟨.between (by decide) (oneLine_entityIdentifier hname) hbases, by decide⟩
  have hmembers : ∀ line ∈ members.flatMap writeMember, OneLine line :=
    List.forall_mem_flatMap.2 fun member hmember =>
      oneLine_writeMember (List.forall_mem_flatMap.1 hnames member hmember)
        (List.forall_mem_flatMap.1 hshapes member hmember)
  refine List.forall_mem_append.2 ⟨List.forall_mem_append.2 ⟨?_, oneLine_suite hmembers⟩, ?_⟩
  · exact List.forall_mem_singleton.2 hhead
  · decide

/-- No statement is written on more lines than are counted. -/
theorem oneLine_write {st : Statement} (hintroduced : ∀ name ∈ st.introduced, OneLine name)
    (hnames : ∀ name ∈ st.memberNames, OneLine name) (htexts : ∀ text ∈ st.texts, OneLine text)
    (hshapes : ∀ x ∈ st.shapes, OneLine (mapping.print x)) :
    ∀ line ∈ write st, OneLine line := by
  have hcomma : OneLine ", " := by decide
  cases st with
  | comment text =>
      have htext := List.forall_mem_singleton.1 htexts
      exact List.forall_mem_singleton.2 (oneLine_append.2 ⟨by decide, htext⟩)
  | blank => exact List.forall_mem_singleton.2 (by decide)
  | words module names =>
      obtain ⟨hmodule, hwords⟩ := List.forall_mem_cons.1 htexts
      exact List.forall_mem_singleton.2 (oneLine_append.2
        ⟨.between (by decide) hmodule (by decide), oneLine_joined hcomma hwords⟩)
  | entities module names =>
      have hmodule := List.forall_mem_singleton.1 htexts
      have hidentifiers : ∀ name ∈ names.map entityIdentifier, OneLine name :=
        List.forall_mem_map.2 fun name hname => oneLine_entityIdentifier (hintroduced name hname)
      exact List.forall_mem_singleton.2 (oneLine_append.2
        ⟨.between (by decide) hmodule (by decide), oneLine_joined hcomma hidentifiers⟩)
  | enumeration name isFlag constants =>
      have hname := oneLine_entityIdentifier (List.forall_mem_singleton.1 hintroduced)
      have hbase : OneLine (if isFlag then "IntFlag" else "Enum") := by
        cases isFlag <;> decide
      have hconstants : ∀ line ∈ constants.map constantLine, OneLine line :=
        List.forall_mem_map.2 fun c hc =>
          oneLine_constantLine (List.forall_mem_map.1 hnames c hc) fun literal hliteral =>
            htexts literal (List.mem_filterMap.2 ⟨c, hc, hliteral⟩)
      refine List.forall_mem_append.2 ⟨List.forall_mem_append.2 ⟨?_, oneLine_suite hconstants⟩, ?_⟩
      · exact List.forall_mem_singleton.2
          (.between (.between (by decide) hname (by decide)) hbase (by decide))
      · decide
  | opaqueType name =>
      have hname := oneLine_entityIdentifier (List.forall_mem_singleton.1 hintroduced)
      simp only [write_opaqueType, opaqueType, List.forall_mem_cons]
      exact ⟨by decide, .between (by decide) hname (by decide), by decide⟩
  | typeAlias name type =>
      have hname := oneLine_entityIdentifier (List.forall_mem_singleton.1 hintroduced)
      have htype := List.forall_mem_singleton.1 hshapes
      exact List.forall_mem_singleton.2 (.between hname (by decide) htype)
  | record name members =>
      exact oneLine_writeClass (List.forall_mem_singleton.1 hintroduced) (by decide) hnames hshapes
  | objectClass name members =>
      exact oneLine_writeClass (List.forall_mem_singleton.1 hintroduced) (by decide) hnames hshapes
  | interface name members =>
      exact oneLine_writeClass (List.forall_mem_singleton.1 hintroduced) (by decide) hnames hshapes

end Python

/-! ## TypeScript -/

namespace TypeScript

theorem oneLine_comment {text : String} (h : OneLine text) : OneLine (comment text) :=
  .between (by decide) (oneLine_replaced (by decide) h) (by decide)

theorem oneLine_parameters {arguments : List (String × String)}
    (h : ∀ a ∈ arguments, OneLine a.1 ∧ OneLine a.2) : OneLine (parameters arguments) :=
  oneLine_joined (by decide) (List.forall_mem_map.2 fun a ha =>
    .between (h a ha).1 (by decide) (h a ha).2)

theorem addsNoLine_mapping : mapping.AddsNoLine where
  primitive := by decide
  render entry hentry arguments h := by
    have hhead : OneLine (arguments.head?.getD "") := by
      cases arguments with
      | nil => decide
      | cons a rest => exact h a List.mem_cons_self
    simp only [mapping, Mapping.unary, List.mem_cons, List.not_mem_nil, or_false] at hentry
    rcases hentry with rfl | rfl | rfl
    · exact .between (by decide) hhead (by decide)
    · exact .between (by decide) hhead (by decide)
    · exact hhead
  declared name h := oneLine_entityIdentifier h
  readonly inner h := .between (by decide) h (by decide)
  function arguments result harguments h :=
    oneLine_append.2 ⟨.between (by decide) (oneLine_parameters harguments) (by decide), h⟩
  annotate inner modifiers h hmodifiers := by
    have hnote : OneLine (comment (joined " " modifiers)) :=
      oneLine_comment (oneLine_joined (by decide) hmodifiers)
    exact .between h (by decide) hnote
  placeholder detail h := oneLine_append.2 ⟨by decide, oneLine_comment h⟩

theorem oneLine_member {name : String} (h : OneLine name) : OneLine (identifiers.member name) :=
  NamingConvention.camelCase.oneLine_apply h

theorem oneLine_writeMember {member : Member} (hnames : ∀ name ∈ member.names, OneLine name)
    (hshapes : ∀ x ∈ member.shapes, OneLine (mapping.print x)) :
    OneLine (writeMember member) := by
  have hindent : OneLine "  " := by decide
  have hend : OneLine ";" := by decide
  cases member with
  | field name isOptional type =>
      have hname := oneLine_member (List.forall_mem_singleton.1 hnames)
      have htype := List.forall_mem_singleton.1 hshapes
      have hmark : OneLine (if isOptional then "?" else "") := by
        cases isOptional <;> decide
      simp only [writeMember, oneLine_append]
      exact ⟨⟨⟨⟨⟨hindent, hname⟩, hmark⟩, by decide⟩, htype⟩, hend⟩
  | method name isStatic isOverload arguments result =>
      obtain ⟨hname, harguments⟩ := List.forall_mem_cons.1 hnames
      obtain ⟨htypes, hresult⟩ := List.forall_mem_append.1 hshapes
      have hword : OneLine (if isStatic then "static " else "") := by
        cases isStatic <;> decide
      have hparameters : OneLine (parameters (mapping.printArguments arguments)) := by
        refine oneLine_parameters ?_
        rw [Mapping.printArguments_eq_map]
        refine List.forall_mem_map.2 fun a ha => ⟨?_, htypes a.2 (List.mem_map_of_mem ha)⟩
        exact mapping.naming.oneLine_apply (harguments a.1 (List.mem_map_of_mem ha))
      have houtput := List.forall_mem_singleton.1 hresult
      simp only [writeMember, oneLine_append]
      exact ⟨⟨⟨⟨⟨⟨⟨hindent, hword⟩, oneLine_member hname⟩, by decide⟩, hparameters⟩, by decide⟩,
        houtput⟩, hend⟩

theorem oneLine_constantLine {c : Constant} (hname : OneLine c.name)
    (hliteral : ∀ literal, c.literal? = some literal → OneLine literal) :
    OneLine (constantLine c) := by
  cases c with
  | named name =>
      have hassigned : OneLine ("  " ++ name ++ " = \"" ++ name) :=
        oneLine_append.2 ⟨.between (by decide) hname (by decide), hname⟩
      exact oneLine_append.2 ⟨hassigned, by decide⟩
  | flag name literal =>
      have hfront : OneLine ("  " ++ name ++ " = ") := .between (by decide) hname (by decide)
      exact .between hfront (hliteral literal rfl) (by decide)

/-- A head, lines and an end. -/
theorem oneLine_block {head last : String} {lines : List String} (hhead : OneLine head)
    (hlines : ∀ line ∈ lines, OneLine line) (hlast : OneLine last) :
    ∀ line ∈ [head] ++ lines ++ [last], OneLine line :=
  List.forall_mem_append.2
    ⟨List.forall_mem_append.2 ⟨List.forall_mem_singleton.2 hhead, hlines⟩,
      List.forall_mem_singleton.2 hlast⟩

theorem oneLine_members {members : List Member}
    (hnames : ∀ name ∈ members.flatMap Member.names, OneLine name)
    (hshapes : ∀ x ∈ members.flatMap Member.shapes, OneLine (mapping.print x)) :
    ∀ line ∈ members.map writeMember, OneLine line :=
  List.forall_mem_map.2 fun member hmember =>
    oneLine_writeMember (List.forall_mem_flatMap.1 hnames member hmember)
      (List.forall_mem_flatMap.1 hshapes member hmember)

/-- No statement is written on more lines than are counted. -/
theorem oneLine_write {st : Statement} (hintroduced : ∀ name ∈ st.introduced, OneLine name)
    (hnames : ∀ name ∈ st.memberNames, OneLine name) (htexts : ∀ text ∈ st.texts, OneLine text)
    (hshapes : ∀ x ∈ st.shapes, OneLine (mapping.print x)) :
    ∀ line ∈ write st, OneLine line := by
  have hcomma : OneLine ", " := by decide
  cases st with
  | comment text =>
      have htext := List.forall_mem_singleton.1 htexts
      exact List.forall_mem_singleton.2 (oneLine_append.2 ⟨by decide, htext⟩)
  | blank => exact List.forall_mem_singleton.2 (by decide)
  | words module names =>
      obtain ⟨hmodule, hwords⟩ := List.forall_mem_cons.1 htexts
      have htaken : OneLine ("import \x7b " ++ joined ", " names ++ " \x7d from \"") :=
        .between (by decide) (oneLine_joined hcomma hwords) (by decide)
      exact List.forall_mem_singleton.2 (.between htaken hmodule (by decide))
  | entities module names =>
      have hmodule := List.forall_mem_singleton.1 htexts
      have hidentifiers : ∀ name ∈ names.map entityIdentifier, OneLine name :=
        List.forall_mem_map.2 fun name hname => oneLine_entityIdentifier (hintroduced name hname)
      have hlist := oneLine_joined hcomma hidentifiers
      have htaken : OneLine ("import \x7b " ++ joined ", " (names.map entityIdentifier) ++
          " \x7d from \"") := .between (by decide) hlist (by decide)
      exact List.forall_mem_cons.2 ⟨.between htaken hmodule (by decide),
        List.forall_mem_singleton.2 (.between (by decide) hlist (by decide))⟩
  | enumeration name isFlag constants =>
      have hname := oneLine_entityIdentifier (List.forall_mem_singleton.1 hintroduced)
      have hconstants : ∀ line ∈ constants.map constantLine, OneLine line :=
        List.forall_mem_map.2 fun c hc =>
          oneLine_constantLine (List.forall_mem_map.1 hnames c hc) fun literal hliteral =>
            htexts literal (List.mem_filterMap.2 ⟨c, hc, hliteral⟩)
      exact oneLine_block (.between (by decide) hname (by decide)) hconstants (by decide)
  | opaqueType name =>
      have hname := oneLine_entityIdentifier (List.forall_mem_singleton.1 hintroduced)
      simp only [write_opaqueType, opaqueType, List.forall_mem_cons]
      exact ⟨by decide, .between (by decide) hname (by decide), List.forall_mem_nil _⟩
  | typeAlias name type =>
      have hname := oneLine_entityIdentifier (List.forall_mem_singleton.1 hintroduced)
      have htype := List.forall_mem_singleton.1 hshapes
      have hfront : OneLine ("export type " ++ entityIdentifier name ++ " = ") :=
        .between (by decide) hname (by decide)
      exact List.forall_mem_singleton.2 (.between hfront htype (by decide))
  | record name members =>
      have hname := oneLine_entityIdentifier (List.forall_mem_singleton.1 hintroduced)
      exact oneLine_block (.between (by decide) hname (by decide)) (oneLine_members hnames hshapes)
        (by decide)
  | objectClass name members =>
      have hname := oneLine_entityIdentifier (List.forall_mem_singleton.1 hintroduced)
      exact oneLine_block (.between (by decide) hname (by decide)) (oneLine_members hnames hshapes)
        (by decide)
  | interface name members =>
      have hname := oneLine_entityIdentifier (List.forall_mem_singleton.1 hintroduced)
      exact oneLine_block (.between (by decide) hname (by decide)) (oneLine_members hnames hshapes)
        (by decide)

end TypeScript

/-! ## Bridges -/

section

variable {s : Spec} {bridgeModule : String}

theorem TypeScript.oneLine_bridge (hclasses : ∀ name ∈ s.classes.keys, OneLine name)
    (hmodule : OneLine bridgeModule) : ∀ line ∈ bridge s bridgeModule, OneLine line := by
  refine List.forall_mem_append.2 ⟨by decide +kernel, List.forall_mem_map.2 fun name hname => ?_⟩
  have hidentifier := oneLine_entityIdentifier (hclasses name hname)
  have hbound : OneLine ("export const \x7b " ++ entityIdentifier name ++ " \x7d = bindings(\"") :=
    .between (by decide) hidentifier (by decide)
  exact .between hbound hmodule (by decide)

theorem Python.oneLine_bridge (hclasses : ∀ name ∈ s.classes.keys, OneLine name)
    (hmodule : OneLine bridgeModule) : ∀ line ∈ bridge s bridgeModule, OneLine line := by
  have hidentifier : ∀ name ∈ s.classes.keys, OneLine (entityIdentifier name) :=
    fun name hname => oneLine_entityIdentifier (hclasses name hname)
  have himport : OneLine ("_bridge = import_module(" ++ stringLiteral bridgeModule ++ ")") :=
    .between (by decide) (oneLine_stringLiteral hmodule) (by decide)
  have hexported : ∀ text ∈ s.classes.keys.map fun name => stringLiteral (entityIdentifier name),
      OneLine text :=
    List.forall_mem_map.2 fun name hname => oneLine_stringLiteral (hidentifier name hname)
  have hcomma : OneLine ", " := by decide
  have hall := oneLine_joined hcomma hexported
  refine List.forall_mem_append.2 ⟨List.forall_mem_append.2 ⟨?_, ?_⟩, ?_⟩
  · simp only [List.forall_mem_cons]
    exact ⟨by decide +kernel, by decide, by decide, himport, by decide, List.forall_mem_nil _⟩
  · refine List.forall_mem_map.2 fun name hname => ?_
    exact .between (hidentifier name hname) (by decide) (hidentifier name hname)
  · simp only [List.forall_mem_cons]
    exact ⟨by decide, .between (by decide) hall (by decide), List.forall_mem_nil _⟩

end

end Bindery
