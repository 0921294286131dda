import Bindery.Proofs.Generation.Agreement
import Bindery.Proofs.Generation.References
import Bindery.Proofs.Report.Summary
import Bindery.Proofs.Target.Placeholders

/-!
# Issues and placeholders

The report has at least as many issues as the declarations have placeholders.
`placeholders_eq_issues_iff`: it has as many exactly if no arguments are dropped that miss
something.
-/

namespace Bindery

open Naming Text

theorem sum_map_flatMap {α β : Type} (g : β → Nat) (xs : List α) (f : α → List β) :
    ((xs.flatMap f).map g).sum = (xs.map fun x => ((f x).map g).sum).sum := by
  induction xs with
  | nil => rfl
  | cons x xs ih => simp [ih]

/-! ## What the types of a spec show -/

/-- The placeholders at a stop of the walk. -/
def Visit.placeholders (s : Spec) (v : Vocabulary) : Visit → Nat
  | .entity .. => 0
  | .type _ t => t.placeholders s v

def placeholdersOn (s : Spec) (v : Vocabulary) (visits : List Visit) : Nat :=
  (visits.map (Visit.placeholders s v)).sum

section

variable (s : Spec) (v : Vocabulary)

theorem placeholdersOn_append (xs ys : List Visit) :
    placeholdersOn s v (xs ++ ys) = placeholdersOn s v xs + placeholdersOn s v ys := by
  simp [placeholdersOn]

theorem placeholdersOn_entity (kind : EntityKind) (name : String) (visits : List Visit) :
    placeholdersOn s v (.entity kind name :: visits) = placeholdersOn s v visits := by
  simp [placeholdersOn, Visit.placeholders]

theorem placeholdersOn_flatMap {α : Type} (xs : List α) (f : α → List Visit) :
    placeholdersOn s v (xs.flatMap f) = (xs.map fun x => placeholdersOn s v (f x)).sum :=
  sum_map_flatMap _ xs f

theorem placeholdersOn_map_type {α : Type} (xs : List α) (location : α → String)
    (type : α → TypeExpr) :
    placeholdersOn s v (xs.map fun x => .type (location x) (type x)) =
      (xs.map fun x => (type x).placeholders s v).sum := by
  rw [placeholdersOn, List.map_map]
  rfl

end

/-! ## What the unit shows -/

namespace TypeScript

def shownIn (lines : List String) : Nat :=
  (lines.map fun line => shown line.toList).sum

theorem shownIn_append (xs ys : List String) : shownIn (xs ++ ys) = shownIn xs + shownIn ys := by
  simp [shownIn]

theorem shownIn_flatMap {α : Type} {xs : List α} {f : α → List String} {n : α → Nat}
    (h : ∀ x ∈ xs, shownIn (f x) = n x) : shownIn (xs.flatMap f) = (xs.map n).sum := by
  rw [shownIn, sum_map_flatMap]
  exact congrArg List.sum (List.map_congr_left h)

theorem shownIn_map {α : Type} {xs : List α} {f : α → String} {n : α → Nat}
    (h : ∀ x ∈ xs, shown (f x).toList = n x) : shownIn (xs.map f) = (xs.map n).sum := by
  rw [shownIn, List.map_map]
  exact congrArg List.sum (List.map_congr_left h)

/-- A text with the text of a type at its end. -/
theorem shown_line {head type : List Char} {c : Char} (hhead : '/' ∉ head)
    (hc : c ∉ placeholderMark) : shown (head ++ c :: ' ' :: (type ++ [';'])) = shown type := by
  rw [shown_append_cons hc, shown_cons (by decide), shown_append_cons (by decide),
    shown_of_slash_not_mem hhead, shown_nil, Nat.zero_add, Nat.add_zero]

variable {s : Spec}

/-- The types of a spec stand in its unit as texts in which each placeholder is seen. -/
def Readable (s : Spec) (t : TypeExpr) : Prop :=
  Shows (t.placeholders s mapping.vocabulary) (mapping.print (t.shape s mapping)).toList

theorem shown_field {name : String} {t : TypeExpr} (isOptional : Bool) (hname : Plain name)
    (ht : Readable s t) :
    shown (writeMember (.field name isOptional (t.shape s mapping))).toList =
      t.placeholders s mapping.vocabulary := by
  have hslash := slash_not_mem (isPlainChar_of_mem_camelCase hname.chars)
  have htext : (writeMember (.field name isOptional (t.shape s mapping))).toList =
      ("  ".toList ++ (camelCase name).toList ++ (if isOptional then ['?'] else [])) ++
        ':' :: ' ' :: ((mapping.print (t.shape s mapping)).toList ++ [';']) := by
    cases isOptional <;>
      simp [writeMember, identifiers, IdentifierRules.member, NamingConvention.apply]
  rw [htext, shown_line (by cases isOptional <;> simpa using hslash) (by decide), ht.count]

theorem shown_method {name : String} {sig : Signature} (isStatic isOverload : Bool)
    (hname : Plain name) (harguments : ∀ a ∈ sig.arguments, Plain a.1)
    (htypes : ∀ t ∈ sig.types, Readable s t) :
    shown (writeMember (.method name isStatic isOverload
        (TypeExpr.shapeArguments s mapping sig.arguments) (sig.result.shape s mapping))).toList =
      (sig.types.map (TypeExpr.placeholders s mapping.vocabulary)).sum := by
  have hslash := slash_not_mem (isPlainChar_of_mem_camelCase hname.chars)
  let inputs := parameters
    (mapping.printArguments (TypeExpr.shapeArguments s mapping sig.arguments))
  let output := mapping.print (sig.result.shape s mapping)
  have htext : (writeMember (.method name isStatic isOverload
      (TypeExpr.shapeArguments s mapping sig.arguments) (sig.result.shape s mapping))).toList =
      ("  ".toList ++ (if isStatic then "static ".toList else []) ++ (camelCase name).toList) ++
        '(' :: (inputs.toList ++ ')' :: ([] ++ ':' :: ' ' :: (output.toList ++ [';']))) := by
    cases isStatic <;>
      simp [writeMember, identifiers, IdentifierRules.member, NamingConvention.apply, inputs,
        output]
  have hhead : '/' ∉ "  ".toList ++ (if isStatic then "static ".toList else []) ++
      (camelCase name).toList := by
    cases isStatic <;> simpa using hslash
  have hinputs : shown inputs.toList =
      TypeExpr.placeholdersArguments s mapping.vocabulary sig.arguments :=
    shown_arguments harguments fun a ha => htypes a.2 (by
      simpa [Signature.types] using .inl ⟨a.1, ha⟩)
  have houtput : shown output.toList = sig.result.placeholders s mapping.vocabulary :=
    (htypes sig.result (by simp [Signature.types])).count
  rw [htext, shown_append_cons (by decide), shown_append_cons (by decide),
    shown_of_slash_not_mem hhead, shown_line (by simp) (by decide), hinputs, houtput,
    TypeExpr.placeholdersArguments_eq_sum]
  simp [Signature.types, Function.comp_def]

/-- What a table of methods needs so that its placeholders can be counted. -/
structure ReadableTable (s : Spec) (table : MethodTable) : Prop where
  names : ∀ name ∈ table.keys, Plain name
  signatures : ∀ overloads ∈ table.values, ∀ sig ∈ overloads,
    (∀ a ∈ sig.arguments, Plain a.1) ∧ ∀ t ∈ sig.types, Readable s t

/-- The overloads of a method show what their types do. -/
theorem shownIn_ofMethod {isStatic : Bool} {entry : String × List Signature}
    (hname : Plain entry.1)
    (hsigs : ∀ sig ∈ entry.2, (∀ a ∈ sig.arguments, Plain a.1) ∧ ∀ t ∈ sig.types, Readable s t) :
    shownIn ((Member.ofMethod s mapping isStatic entry).map writeMember) =
      ((entry.2.flatMap Signature.types).map
        (TypeExpr.placeholders s mapping.vocabulary)).sum := by
  rw [Member.ofMethod, List.map_map, sum_map_flatMap]
  refine shownIn_map fun sig hsig => ?_
  obtain ⟨harguments, htypes⟩ := hsigs sig hsig
  exact shown_method isStatic _ hname harguments htypes

theorem shownIn_methods {isStatic : Bool} {kind owner : String} {table : MethodTable}
    (h : ReadableTable s table) :
    shownIn ((Member.ofMethods s mapping isStatic table).map writeMember) =
      placeholdersOn s mapping.vocabulary (table.visits kind owner) := by
  rw [Member.ofMethods, List.map_flatMap, MethodTable.visits, placeholdersOn_flatMap]
  refine shownIn_flatMap fun entry hentry => ?_
  have hvisits := placeholdersOn_map_type s mapping.vocabulary
    (entry.2.flatMap Signature.types) (fun _ => memberLocation kind owner entry.1) id
  rw [shownIn_ofMethod (h.names entry.1 (List.mem_map_of_mem hentry))
    (OrderedMap.forall_mem_values.1 h.signatures entry hentry)]
  exact hvisits.symm

/-! ## Statements -/

theorem shownIn_block {head foot : String} {lines : List String} (hhead : '/' ∉ head.toList)
    (hfoot : '/' ∉ foot.toList) : shownIn ([head] ++ lines ++ [foot]) = shownIn lines := by
  rw [shownIn_append, shownIn_append]
  simp [shownIn, shown_of_slash_not_mem hhead, shown_of_slash_not_mem hfoot]

theorem slash_not_mem_entityIdentifier {name : String} (h : PlainPath name) :
    '/' ∉ (entityIdentifier name).toList :=
  slash_not_mem (isPlainChar_of_mem_entityIdentifier h)

theorem shownIn_ofAlias {entry : String × TypeExpr} (hname : PlainPath entry.1)
    (htype : Readable s entry.2) :
    shownIn (write (.ofAlias s mapping entry)) = entry.2.placeholders s mapping.vocabulary := by
  have hslash := slash_not_mem_entityIdentifier hname
  have htext : ("export type " ++ entityIdentifier entry.1 ++ " = " ++
      mapping.print (entry.2.shape s mapping) ++ ";").toList =
        ("export type ".toList ++ (entityIdentifier entry.1).toList ++ [' ']) ++
          '=' :: ' ' :: ((mapping.print (entry.2.shape s mapping)).toList ++ [';']) := by
    simp
  have hhead : '/' ∉ "export type ".toList ++ (entityIdentifier entry.1).toList ++ [' '] := by
    simpa using hslash
  rw [Statement.ofAlias, write, shownIn, List.map_singleton, htext, shown_line hhead (by decide),
    htype.count, List.sum_singleton]

theorem shownIn_ofRecord {entry : String × Record} (hname : PlainPath entry.1)
    (hnames : ∀ name ∈ entry.2.fields.keys, Plain name)
    (htypes : ∀ f ∈ entry.2.fields.values, Readable s f.type) :
    shownIn (write (.ofRecord s mapping entry)) =
      placeholdersOn s mapping.vocabulary (entry.2.visits entry.1) := by
  have hslash := slash_not_mem_entityIdentifier hname
  rw [Statement.ofRecord, write, shownIn_block (by simpa using hslash) (by decide), List.map_map,
    Record.visits, placeholdersOn_entity, placeholdersOn_map_type]
  refine shownIn_map fun f hf => ?_
  exact shown_field f.2.isOptional (hnames f.1 (List.mem_map_of_mem hf))
    (OrderedMap.forall_mem_values.1 htypes f hf)

theorem shownIn_ofClass {entry : String × Class} (hname : PlainPath entry.1)
    (hstatic : ReadableTable s entry.2.staticMethods)
    (hnames : ∀ name ∈ entry.2.properties.keys, Plain name)
    (htypes : ∀ t ∈ entry.2.properties.values, Readable s t)
    (hmethods : ReadableTable s entry.2.methods) :
    shownIn (write (.ofClass s mapping entry)) =
      placeholdersOn s mapping.vocabulary (entry.2.visits entry.1) := by
  have hslash := slash_not_mem_entityIdentifier hname
  have hproperties : shownIn ((entry.2.properties.entries.map (Member.ofProperty s mapping)).map
      writeMember) = (entry.2.properties.entries.map fun f =>
        f.2.placeholders s mapping.vocabulary).sum := by
    rw [List.map_map]
    refine shownIn_map fun f hf => ?_
    exact shown_field false (hnames f.1 (List.mem_map_of_mem hf))
      (OrderedMap.forall_mem_values.1 htypes f hf)
  rw [Statement.ofClass, write, shownIn_block (by simpa using hslash) (by decide), List.map_append,
    List.map_append, shownIn_append, shownIn_append, shownIn_methods hstatic, hproperties,
    shownIn_methods hmethods, Class.visits, placeholdersOn_entity, placeholdersOn_append,
    placeholdersOn_append, placeholdersOn_map_type]

theorem shownIn_ofInterface {entry : String × Interface} (hname : PlainPath entry.1)
    (hmethods : ReadableTable s entry.2.methods) :
    shownIn (write (.ofInterface s mapping entry)) =
      placeholdersOn s mapping.vocabulary (entry.2.visits entry.1) := by
  have hslash := slash_not_mem_entityIdentifier hname
  rw [Statement.ofInterface, write, shownIn_block (by simpa using hslash) (by decide),
    shownIn_methods hmethods, Interface.visits, placeholdersOn_entity]

theorem shownIn_eq_zero {lines : List String} (h : ∀ line ∈ lines, '/' ∉ line.toList) :
    shownIn lines = 0 := by
  rw [shownIn, List.sum_eq_zero_iff_forall_eq_nat]
  exact List.forall_mem_map.2 fun line hline => shown_of_slash_not_mem (h line hline)

theorem shownIn_ofSharedName {entry : String × Class} (hname : PlainPath entry.1)
    (hshared : ∀ shared ∈ entry.2.sharedName, PlainPath shared) :
    shownIn ((Statement.ofSharedName entry).flatMap write) = 0 := by
  have hslash := slash_not_mem_entityIdentifier hname
  cases h : entry.2.sharedName with
  | none => simp [Statement.ofSharedName, h, shownIn]
  | some shared =>
      have hsharedSlash := slash_not_mem_entityIdentifier (hshared shared h)
      refine shownIn_eq_zero ?_
      simp [Statement.ofSharedName, h, write, Mapping.print, mapping, hslash, hsharedSlash]

theorem shownIn_comment {text : String} (h : '/' ∉ text.toList) :
    shownIn (write (.comment text)) = 0 := by
  have htext : ("// " ++ text).toList = '/' :: '/' :: ' ' :: text.toList := by simp
  rw [write, shownIn, List.map_singleton, htext, shown_cons (by decide), shown_cons (by decide),
    shown_cons (by decide), shown_of_slash_not_mem h, List.sum_singleton]

theorem shownIn_opaqueType {name : String} (h : PlainPath name) :
    shownIn (write (.opaqueType name)) = 0 := by
  have hslash := slash_not_mem_entityIdentifier h
  have hmarker : shown "/** Using an empty enum to express a nominal type */".toList = 0 := by
    decide
  have hname : shown ("export declare enum " ++ entityIdentifier name ++ " \x7b\x7d").toList = 0 :=
    shown_of_slash_not_mem (by simpa using hslash)
  rw [write_opaqueType, opaqueType, shownIn, List.map_cons, List.map_singleton, hmarker, hname]
  rfl

theorem shownIn_entities {names : List String} (h : ∀ name ∈ names, PlainPath name) :
    shownIn (write (.entities "./enums" names)) = 0 := by
  have hjoined : '/' ∉ (joined ", " (names.map entityIdentifier)).toList := by
    intro hmem
    rcases mem_joined hmem with hmem | ⟨part, hpart, hmem⟩
    · exact absurd hmem (by decide)
    · obtain ⟨name, hname, rfl⟩ := List.mem_map.1 hpart
      exact slash_not_mem_entityIdentifier (h name hname) hmem
  have himport : ("import \x7b " ++ joined ", " (names.map entityIdentifier) ++ " \x7d from \"" ++
      "./enums" ++ "\";").toList = ("import \x7b ".toList ++
        (joined ", " (names.map entityIdentifier)).toList ++ " \x7d from \"".toList) ++
          '.' :: "/enums\";".toList := by
    simp
  have hmodule : shown "/enums\";".toList = 0 := by decide
  rw [write, shownIn, List.map_cons, List.map_singleton, himport, shown_append_cons (by decide),
    hmodule, shown_of_slash_not_mem (by simpa using hjoined),
    shown_of_slash_not_mem (by simpa using hjoined)]
  rfl

/-! ## Sections -/

section

variable (h : s.PlainlyNamed)
include h

theorem readable {t : TypeExpr} (ht : s.HasType t) : Readable s t :=
  shows_shape h.entities (h.types t ht)

theorem readableTable {table : MethodTable} (hnames : ∀ name ∈ table.keys, Plain name)
    (hsigs : ∀ overloads ∈ table.values, ∀ sig ∈ overloads, s.HasSignature sig) :
    ReadableTable s table := by
  refine ⟨hnames, fun overloads ho sig hsig => ⟨fun a ha => ?_, ?_⟩⟩
  · exact h.arguments sig (hsigs overloads ho sig hsig) a.1 (List.mem_map_of_mem ha)
  · rw [Signature.types, List.forall_mem_append, List.forall_mem_singleton]
    exact ⟨fun t ht => readable h (.argument (hsigs overloads ho sig hsig) ht),
      readable h (.result (hsigs overloads ho sig hsig) rfl)⟩

theorem plainPath_of_introduced {name : String} (hname : name ∈ s.introducedNames) :
    PlainPath name :=
  h.entities name (s.introducedNames_perm.mem_iff.1 hname)

theorem shownIn_imports :
    shownIn ((if s.enumerations.isEmpty then []
      else [Statement.entities "./enums" s.enumerations.keys]).flatMap write) = 0 := by
  cases s.enumerations.isEmpty with
  | true => rfl
  | false =>
      have hentities : shownIn (write (.entities "./enums" s.enumerations.keys)) = 0 :=
        shownIn_entities fun name hname =>
          plainPath_of_introduced h (by simp [Spec.introducedNames, hname])
      simpa using hentities

theorem shownIn_opaqueTypes :
    shownIn ((s.opaqueTypes.map Statement.opaqueType).flatMap write) = 0 := by
  have hzero : (s.opaqueTypes.map fun _ => 0).sum = 0 := by simp
  rw [List.flatMap_map, ← hzero]
  refine shownIn_flatMap fun name hname => ?_
  exact shownIn_opaqueType (plainPath_of_introduced h (by simp [Spec.introducedNames, hname]))

theorem shownIn_aliases :
    shownIn ((s.aliases.entries.map (.ofAlias s mapping)).flatMap write) =
      (s.aliases.entries.map fun entry => entry.2.placeholders s mapping.vocabulary).sum := by
  rw [List.flatMap_map]
  refine shownIn_flatMap fun entry hentry => ?_
  have hkey : entry.1 ∈ s.aliases.keys := List.mem_map_of_mem hentry
  have hvalue : entry.2 ∈ s.aliases.values := List.mem_map_of_mem hentry
  exact shownIn_ofAlias (plainPath_of_introduced h (by simp [Spec.introducedNames, hkey]))
    (readable h (.typeAlias hvalue))

theorem shownIn_records :
    shownIn ((s.records.entries.map (.ofRecord s mapping)).flatMap write) =
      (s.records.entries.map fun entry =>
        placeholdersOn s mapping.vocabulary (entry.2.visits entry.1)).sum := by
  rw [List.flatMap_map]
  refine shownIn_flatMap fun entry hentry => ?_
  have hkey : entry.1 ∈ s.records.keys := List.mem_map_of_mem hentry
  have hvalue : entry.2 ∈ s.records.values := List.mem_map_of_mem hentry
  have hname : PlainPath entry.1 :=
    plainPath_of_introduced h (by simp [Spec.introducedNames, hkey])
  exact shownIn_ofRecord hname (h.fields _ hvalue) fun f hf => readable h (.field hvalue hf rfl)

theorem shownIn_classes :
    shownIn ((s.classes.entries.flatMap fun entry =>
        .ofClass s mapping entry :: Statement.ofSharedName entry).flatMap write) =
      (s.classes.entries.map fun entry =>
        placeholdersOn s mapping.vocabulary (entry.2.visits entry.1)).sum := by
  rw [List.flatMap_assoc]
  refine shownIn_flatMap fun entry hentry => ?_
  have hvalue : entry.2 ∈ s.classes.values := List.mem_map_of_mem hentry
  have hnames : ∀ name ∈ entry.1 :: entry.2.sharedName.toList, PlainPath name := by
    intro name hname
    have hclasses : name ∈ s.classes.entries.flatMap fun entry =>
        entry.1 :: entry.2.sharedName.toList := List.mem_flatMap.2 ⟨entry, hentry, hname⟩
    exact plainPath_of_introduced h (by
      simp only [Spec.introducedNames, List.mem_append, hclasses, true_or, or_true])
  obtain ⟨hname, hshared⟩ := List.forall_mem_cons.1 hnames
  have hstatic := readableTable h (h.staticMethods _ hvalue) fun overloads ho sig hsig =>
    .staticMethod hvalue ho hsig
  have hmethods := readableTable h (h.methods _ hvalue) fun overloads ho sig hsig =>
    .method hvalue ho hsig
  have hclass := shownIn_ofClass hname hstatic (h.properties _ hvalue)
    (fun t ht => readable h (.property hvalue ht)) hmethods
  have hsecond := shownIn_ofSharedName hname fun shared hmem =>
    hshared shared (Option.mem_toList.2 hmem)
  rw [List.flatMap_cons, shownIn_append, hclass, hsecond, Nat.add_zero]

theorem shownIn_interfaces :
    shownIn ((s.interfaces.entries.map (.ofInterface s mapping)).flatMap write) =
      (s.interfaces.entries.map fun entry =>
        placeholdersOn s mapping.vocabulary (entry.2.visits entry.1)).sum := by
  rw [List.flatMap_map]
  refine shownIn_flatMap fun entry hentry => ?_
  have hkey : entry.1 ∈ s.interfaces.keys := List.mem_map_of_mem hentry
  have hvalue : entry.2 ∈ s.interfaces.values := List.mem_map_of_mem hentry
  have htable := readableTable h (h.interfaceMethods _ hvalue) fun overloads ho sig hsig =>
    .interfaceMethod hvalue ho hsig
  have hname : PlainPath entry.1 :=
    plainPath_of_introduced h (by simp [Spec.introducedNames, hkey])
  exact shownIn_ofInterface hname htable

/-- The unit of a plainly named spec has the placeholders that its types show. -/
theorem shownIn_statements :
    shownIn ((statements s).flatMap write) = placeholdersOn s mapping.vocabulary s.typeVisits := by
  simp only [statements, List.flatMap_append, List.flatMap_singleton, shownIn_append,
    shownIn_imports h, shownIn_opaqueTypes h, shownIn_aliases h, shownIn_records h,
    shownIn_classes h, shownIn_interfaces h, Spec.typeVisits, placeholdersOn_append,
    placeholdersOn_flatMap, placeholdersOn_map_type]
  simp (disch := decide) only [shownIn_comment, Nat.zero_add, Nat.add_zero]

end

theorem shown_text (u : OutputUnit) : shown u.text.toList = shownIn u.lines := by
  have htext : u.text.toList = join ('\n' :: []) (u.lines.map String.toList) ++ '\n' :: [] := by
    simp [OutputUnit.text, joined]
  have hjoin : shown (join ('\n' :: []) (u.lines.map String.toList)) =
      ((u.lines.map String.toList).map shown).sum :=
    occurrences_join (by decide) (by simp) _
  rw [htext, shown_append_cons (by decide), hjoin, List.map_map, shown_nil, Nat.add_zero]
  rfl

end TypeScript

/-! ## Issues and placeholders -/

namespace Spec

variable {s : Spec} {v : Vocabulary}

/-- A spec shows no more placeholders than it misses, and as many exactly if its types keep them. -/
theorem placeholdersOn_eq_length_misses_iff :
    placeholdersOn s v s.typeVisits ≤ (s.misses v).length ∧
      (placeholdersOn s v s.typeVisits = (s.misses v).length ↔
        ∀ t, s.HasType t → t.KeepsPlaceholders s v) := by
  have hvisit : ∀ visit ∈ s.typeVisits, visit.placeholders s v ≤ (visit.misses s v).length := by
    intro visit _
    cases visit with
    | entity kind name => exact Nat.zero_le _
    | type location t =>
        rw [Visit.misses, TypeExpr.length_misses]
        exact t.placeholders_eq_length_misses_iff.1
  have hkeeps : (∀ visit ∈ s.typeVisits, visit.placeholders s v = (visit.misses s v).length) ↔
      ∀ visit ∈ s.typeVisits, VisitHolds (TypeExpr.KeepsPlaceholders s v) visit := by
    refine forall₂_congr fun visit _ => ?_
    cases visit with
    | entity kind name => exact iff_of_true rfl trivial
    | type location t =>
        rw [Visit.misses, TypeExpr.length_misses]
        exact t.placeholders_eq_length_misses_iff.2
  rw [misses, List.length_flatMap, placeholdersOn, ← forall_typeVisits_iff, ← hkeeps]
  exact TypeExpr.sum_map_eq_iff hvisit

end Spec

namespace TargetReport

variable {s : Spec}

theorem issues_generate_typescript (bridgeModule : Option String) (shelf : Shelf)
    (h : s.validate TypeScript.identifiers = []) :
    (generate TypeScript.target s bridgeModule Sink.memory shelf).report.issues =
      s.misses TypeScript.mapping.vocabulary :=
  (generate_eq_misses .typescript s bridgeModule shelf h).2.1

theorem occurrences_declarationUnit (bridgeModule : Option String) (shelf : Shelf)
    (h : s.validate TypeScript.identifiers = []) (hnames : s.PlainlyNamed) :
    ∃ u, (generate TypeScript.target s bridgeModule Sink.memory shelf).state.get? "native.d.ts" =
      some u ∧ occurrences "unknown /* ".toList u.text.toList =
        placeholdersOn s TypeScript.mapping.vocabulary s.typeVisits := by
  obtain ⟨u, hunit, hlines⟩ := declarationUnit_lines .typescript s bridgeModule shelf h
  have htext := TypeScript.shown_text u
  rw [hlines] at htext
  exact ⟨u, hunit, htext.trans (TypeScript.shownIn_statements hnames)⟩

/-- The report of a plainly named spec has at least as many issues as the declarations have
placeholders, and as many exactly if its types keep theirs. Its counts are those of the issues. -/
theorem placeholders_eq_issues_iff (s : Spec) (bridgeModule : Option String) (shelf : Shelf)
    (h : s.validate TypeScript.identifiers = []) (hnames : s.PlainlyNamed) :
    let run := generate TypeScript.target s bridgeModule Sink.memory shelf
    (∃ u, run.state.get? "native.d.ts" = some u ∧
      occurrences "unknown /* ".toList u.text.toList ≤ run.report.issues.length ∧
      (occurrences "unknown /* ".toList u.text.toList = run.report.issues.length ↔
        ∀ t, s.HasType t → t.KeepsPlaceholders s TypeScript.mapping.vocabulary)) ∧
    Report.placeholderCount ⟨[run.report]⟩ = run.report.issues.length ∧
    (run.report.placeholderSummary.entries.map Prod.snd).sum = run.report.issues.length := by
  intro run
  obtain ⟨u, hunit, hshown⟩ := occurrences_declarationUnit bridgeModule shelf h hnames
  refine ⟨⟨u, hunit, ?_⟩, by simp [Report.placeholderCount], sum_placeholderSummary run.report⟩
  rw [hshown, issues_generate_typescript bridgeModule shelf h]
  exact Spec.placeholdersOn_eq_length_misses_iff

/-- Types that miss something, but drop none of it. -/
def keptSpec : Spec where
  aliases := .ofList [("Callback", .function
    [("value", .applied "std::vector" [.applied "util::Optional" [.named "Missing"]])]
    (.name ["Lost"] true { pointer := true }) false true)]
  records := .ofList [("Point", ⟨.ofList [
    ("x", { type := .applied "std::map" [.named "Missing", .named "Lost"] }),
    ("y", { type := .applied "std::vector" [] })]⟩)]

theorem keptSpec_plainlyNamed : keptSpec.PlainlyNamed where
  entities := by decide +kernel
  fields := by decide +kernel
  properties := by decide
  methods := by decide
  staticMethods := by decide
  interfaceMethods := by decide
  arguments := Spec.forall_hasSignature_iff.2 (by decide)
  types := Spec.forall_hasType_iff_entities.2 (by decide +kernel)

theorem placeholders_eq_issues_keptSpec :
    keptSpec.validate TypeScript.identifiers = [] ∧ keptSpec.PlainlyNamed ∧
    let run := generate TypeScript.target keptSpec none Sink.memory ∅
    run.report.issues.length = 4 ∧ ∃ u, run.state.get? "native.d.ts" = some u ∧
      occurrences "unknown /* ".toList u.text.toList = 4 := by
  have hvalid : keptSpec.validate TypeScript.identifiers = [] := by decide +kernel
  have hkeeps : ∀ t, keptSpec.HasType t →
      t.KeepsPlaceholders keptSpec TypeScript.mapping.vocabulary := by
    intro t ht
    refine t.placeholders_eq_length_misses_iff.2.1 ?_
    revert t
    exact Spec.forall_hasType_iff_entities.2 (by decide +kernel)
  have hlength : (generate TypeScript.target keptSpec none Sink.memory ∅).report.issues.length =
      4 := by
    rw [issues_generate_typescript none ∅ hvalid]
    decide +kernel
  obtain ⟨⟨u, hunit, -, hiff⟩, -⟩ :=
    placeholders_eq_issues_iff keptSpec none ∅ hvalid keptSpec_plainlyNamed
  exact ⟨hvalid, keptSpec_plainlyNamed, hlength, u, hunit, (hiff.2 hkeeps).trans hlength⟩

/-- A type with two arguments too many to show what each of them misses. -/
def crowdedSpec : Spec where
  aliases := .ofList [("Pair", .applied "std::vector" [.named "Foo", .named "Bar"])]

theorem crowdedSpec_plainlyNamed : crowdedSpec.PlainlyNamed where
  entities := by decide +kernel
  fields := by decide
  properties := by decide
  methods := by decide
  staticMethods := by decide
  interfaceMethods := by decide
  arguments := Spec.forall_hasSignature_iff.2 (by decide)
  types := Spec.forall_hasType_iff_entities.2 (by decide +kernel)

theorem placeholders_lt_issues_crowdedSpec :
    crowdedSpec.validate TypeScript.identifiers = [] ∧ crowdedSpec.PlainlyNamed ∧
    let run := generate TypeScript.target crowdedSpec none Sink.memory ∅
    run.report.issues.length = 3 ∧ ∃ u, run.state.get? "native.d.ts" = some u ∧
      occurrences "unknown /* ".toList u.text.toList = 1 := by
  have hvalid : crowdedSpec.validate TypeScript.identifiers = [] := by decide +kernel
  obtain ⟨u, hunit, hshown⟩ := occurrences_declarationUnit none ∅ hvalid crowdedSpec_plainlyNamed
  refine ⟨hvalid, crowdedSpec_plainlyNamed, ?_, u, hunit, ?_⟩
  · rw [issues_generate_typescript none ∅ hvalid]
    decide +kernel
  · rw [hshown]
    decide +kernel

end TargetReport

end Bindery
