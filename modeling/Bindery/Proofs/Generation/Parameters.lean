import Bindery.Proofs.Generation.References
import Bindery.Proofs.Resolution.Misses

/-!
# Parameters that share a name

Validation compares the arguments of signatures as far as their names differ.
`parameters_nodup_iff`: what it leaves to the spec are arguments of one name, the receiver in Python
and, in TypeScript, the arguments of functions that are used as types.
-/

namespace Bindery

/-! ## Functions in the text of a type -/

namespace Mapping

mutual
/-- The names of the parameters of every function in the text of a shape. -/
def functionParameters (m : Mapping) : Shape → List (List String)
  | .declared _ => []
  | .primitive _ => []
  | .placeholder _ => []
  | .readonly inner => m.functionParameters inner
  | .annotated inner _ => m.functionParameters inner
  | .applied _ arguments => m.functionParametersAll arguments
  | .function arguments result =>
    (m.printArguments arguments).map Prod.fst ::
      (m.functionParametersArguments arguments ++ m.functionParameters result)

def functionParametersAll (m : Mapping) : List Shape → List (List String)
  | [] => []
  | x :: xs => m.functionParameters x ++ m.functionParametersAll xs

def functionParametersArguments (m : Mapping) : List (String × Shape) → List (List String)
  | [] => []
  | (_, x) :: rest => m.functionParameters x ++ m.functionParametersArguments rest
end

variable (m : Mapping)

theorem functionParametersAll_eq_flatMap (xs : List Shape) :
    m.functionParametersAll xs = xs.flatMap m.functionParameters := by
  induction xs with
  | nil => rfl
  | cons x xs ih => simp [functionParametersAll, ih]

theorem functionParametersArguments_eq_flatMap (arguments : List (String × Shape)) :
    m.functionParametersArguments arguments =
      arguments.flatMap fun a => m.functionParameters a.2 := by
  induction arguments with
  | nil => rfl
  | cons a arguments ih => simp [functionParametersArguments, ih]

@[simp] theorem functionParameters_guarded (isConst : Bool) (x : Shape) :
    m.functionParameters (x.guarded isConst) = m.functionParameters x := by
  cases isConst <;> simp [Shape.guarded, functionParameters]

@[simp] theorem functionParameters_noted (modifiers : List String) (x : Shape) :
    m.functionParameters (x.noted modifiers) = m.functionParameters x := by
  cases modifiers <;> simp [Shape.noted, functionParameters]

theorem functionParameters_nameShape (s : Spec) (fullName : String) :
    m.functionParameters (TypeExpr.nameShape s m fullName) = [] := by
  rw [TypeExpr.nameShape]
  split
  · rfl
  · split <;> rfl

end Mapping

namespace TypeExpr

variable {s : Spec} {m : Mapping}

theorem functionParameters_templateShape (fullName : String) (arguments : List TypeExpr) :
    m.functionParameters (templateShape m fullName arguments (shapeAll s m arguments)) =
      if m.vocabulary.templates.lookup fullName = some arguments.length then
        arguments.flatMap fun a => m.functionParameters (a.shape s m) else [] := by
  rw [templateShape, Vocabulary.lookup_templates]
  cases m.template? fullName with
  | none => simp [Mapping.functionParameters]
  | some rule =>
      by_cases h : arguments.length = rule.arity
      · simp [h, Mapping.functionParameters, Mapping.functionParametersAll_eq_flatMap,
          shapeAll_eq_map, List.flatMap_map]
      · simp [h, Ne.symm h, Mapping.functionParameters]

/-- The parameters in the text of a type are those of the functions that are written with it. -/
theorem forall_functionParameters_shape {p : List String → Prop} (t : TypeExpr) :
    (∀ names ∈ m.functionParameters (t.shape s m), p names) ↔
      ∀ arguments result isConst isNoExcept,
        Written m.vocabulary (.function arguments result isConst isNoExcept) t →
        p (arguments.map fun a => m.naming.apply a.1) := by
  induction t with
  | name path isConst indirection =>
      rw [shape, Mapping.functionParameters_guarded, Mapping.functionParameters_noted,
        Mapping.functionParameters_nameShape]
      refine iff_of_true (List.forall_mem_nil _) fun _ _ _ _ hwritten => ?_
      cases hwritten
  | template path arguments isConst ih =>
      rw [shape, Mapping.functionParameters_guarded, functionParameters_templateShape]
      by_cases h : m.vocabulary.templates.lookup (joinPath path) = some arguments.length
      · rw [if_pos h, List.forall_mem_flatMap, forall₂_congr ih]
        constructor
        · intro hall _ _ _ _ hwritten
          cases hwritten with
          | templateArgument _ ha hwritten => exact hall _ ha _ _ _ _ hwritten
        · intro hall a ha _ _ _ _ hwritten
          exact hall _ _ _ _ (.templateArgument h ha hwritten)
      · rw [if_neg h]
        refine iff_of_true (List.forall_mem_nil _) fun _ _ _ _ hwritten => ?_
        cases hwritten with
        | templateArgument hlookup _ _ => exact absurd hlookup h
  | function arguments result isConst isNoExcept hargs hresult =>
      rw [shape, Mapping.functionParameters_guarded, Mapping.functionParameters_noted,
        Mapping.functionParameters, Mapping.functionParametersArguments_eq_flatMap,
        shapeArguments_eq_map, Mapping.printArguments_eq_map, List.flatMap_map, List.map_map,
        List.forall_mem_cons, List.forall_mem_append, List.forall_mem_flatMap,
        forall₂_congr hargs, hresult, List.map_map]
      constructor
      · rintro ⟨hself, harguments, hall⟩ _ _ _ _ hwritten
        cases hwritten with
        | self => exact hself
        | functionArgument ha hwritten => exact harguments _ ha _ _ _ _ hwritten
        | functionResult hwritten => exact hall _ _ _ _ hwritten
      · intro hall
        exact ⟨hall _ _ _ _ .self,
          fun a ha _ _ _ _ hwritten => hall _ _ _ _ (.functionArgument ha hwritten),
          fun _ _ _ _ hwritten => hall _ _ _ _ (.functionResult hwritten)⟩

end TypeExpr

/-! ## Parameters in the text of statements -/

namespace Statement

def members : Statement → List Member
  | .comment _ => []
  | .blank => []
  | .words _ _ => []
  | .entities _ _ => []
  | .enumeration _ _ _ => []
  | .opaqueType _ => []
  | .typeAlias _ _ => []
  | .record _ members => members
  | .objectClass _ members => members
  | .interface _ members => members

end Statement

namespace TargetId

/-- What a signature in Python begins with, unless it is static. -/
def receiver : TargetId → Bool → List String
  | .typescript, _ => []
  | .python, isStatic => if isStatic then [] else ["self"]

/-- The parameters in the line of a method. -/
def signatureParameters (id : TargetId) : Member → List (List String)
  | .field _ _ _ => []
  | .method _ isStatic _ arguments _ =>
    [id.receiver isStatic ++ ((Target.ofId id).mapping.printArguments arguments).map fun a =>
      (Target.ofId id).identifiers.escape a.1]

/-- Functions that are used as types name their parameters in TypeScript only. -/
def functionParameters : TargetId → Shape → List (List String)
  | .typescript, x => TypeScript.mapping.functionParameters x
  | .python, _ => []

/-- In Python an opaque type has an initializer, which takes the instance and nothing else. -/
def initializerParameters : TargetId → Statement → List (List String)
  | .python, .opaqueType _ => [["self"]]
  | _, _ => []

/-- All lists of parameters in the text of a statement. -/
def parameterLists (id : TargetId) (st : Statement) : List (List String) :=
  id.initializerParameters st ++ st.members.flatMap id.signatureParameters ++
    st.shapes.flatMap id.functionParameters

end TargetId

/-- The signature of a method that is called on an instance. -/
inductive Spec.HasInstanceSignature (s : Spec) (sig : Signature) : Prop where
  | method {c overloads} : c ∈ s.classes.values → overloads ∈ c.methods.values →
      sig ∈ overloads → HasInstanceSignature s sig
  | interfaceMethod {i overloads} : i ∈ s.interfaces.values → overloads ∈ i.methods.values →
      sig ∈ overloads → HasInstanceSignature s sig

theorem Spec.forall_hasInstanceSignature_iff {s : Spec} {p : Signature → Prop} :
    (∀ sig, s.HasInstanceSignature sig → p sig) ↔
      (∀ c ∈ s.classes.values, ∀ overloads ∈ c.methods.values, ∀ sig ∈ overloads, p sig) ∧
      ∀ i ∈ s.interfaces.values, ∀ overloads ∈ i.methods.values, ∀ sig ∈ overloads, p sig := by
  constructor
  · intro h
    exact ⟨fun c hc o ho sig hsig => h sig (.method hc ho hsig),
      fun i hi o ho sig hsig => h sig (.interfaceMethod hi ho hsig)⟩
  · rintro ⟨hmethods, hinterfaces⟩ sig hsig
    cases hsig with
    | method hc ho hsig => exact hmethods _ hc _ ho _ hsig
    | interfaceMethod hi ho hsig => exact hinterfaces _ hi _ ho _ hsig

/-- What validation does not look at: arguments of one name; arguments that become the receiver of a
method in Python; arguments of functions that are used as types in TypeScript. -/
structure Spec.ParametersApart (id : TargetId) (s : Spec) : Prop where
  arguments : ∀ sig, s.HasSignature sig → (sig.arguments.map Prod.fst).Nodup
  receiver : id = .python → ∀ sig, s.HasInstanceSignature sig → ∀ a ∈ sig.arguments,
    Python.identifiers.member a.1 ≠ "self"
  functions : id = .typescript → ∀ t, s.HasType t → ∀ arguments result isConst isNoExcept,
    TypeExpr.Written TypeScript.mapping.vocabulary
      (.function arguments result isConst isNoExcept) t →
    (arguments.map fun a => Naming.camelCase a.1).Nodup

namespace TargetId

variable {id : TargetId} {s : Spec}

theorem forall_members_statements {p : Member → Prop}
    (hfield : ∀ name isOptional type, p (.field name isOptional type)) :
    (∀ st ∈ id.statements s, ∀ x ∈ st.members, p x) ↔
      (∀ c ∈ s.classes.values,
        (∀ x ∈ Member.ofMethods s (Target.ofId id).mapping true c.staticMethods, p x) ∧
        ∀ x ∈ Member.ofMethods s (Target.ofId id).mapping false c.methods, p x) ∧
      ∀ i ∈ s.interfaces.values,
        ∀ x ∈ Member.ofMethods s (Target.ofId id).mapping false i.methods, p x := by
  constructor
  · intro hall
    constructor
    · rw [OrderedMap.forall_mem_values]
      intro entry he
      have hclass := hall _ (Statement.objectClass_mem_statements_iff.2 ⟨entry, he, rfl⟩)
      simp only [Statement.members, List.forall_mem_append] at hclass
      exact ⟨hclass.1.1, hclass.2⟩
    · rw [OrderedMap.forall_mem_values]
      intro entry he
      exact hall _ (Statement.interface_mem_statements_iff.2 ⟨entry, he, rfl⟩)
  · rintro ⟨hclasses, hinterfaces⟩ st hst x hx
    cases st with
    | record name members =>
        obtain ⟨entry, -, heq⟩ := Statement.record_mem_statements_iff.1 hst
        cases heq
        obtain ⟨f, -, rfl⟩ := List.mem_map.1 hx
        exact hfield _ _ _
    | objectClass name members =>
        obtain ⟨entry, he, heq⟩ := Statement.objectClass_mem_statements_iff.1 hst
        cases heq
        obtain ⟨hstatic, hmethods⟩ := hclasses entry.2 (List.mem_map_of_mem he)
        rcases List.mem_append.1 hx with hx | hx
        · rcases List.mem_append.1 hx with hx | hx
          · exact hstatic x hx
          · obtain ⟨property, -, rfl⟩ := List.mem_map.1 hx
            exact hfield _ _ _
        · exact hmethods x hx
    | interface name members =>
        obtain ⟨entry, he, heq⟩ := Statement.interface_mem_statements_iff.1 hst
        cases heq
        exact hinterfaces entry.2 (List.mem_map_of_mem he) x hx
    | _ => cases hx

/-! ## Which lists repeat a name -/

theorem escape_apply (id : TargetId) (name : String) :
    (Target.ofId id).identifiers.escape ((Target.ofId id).mapping.naming.apply name) =
      (Target.ofId id).identifiers.member name := by
  cases id <;> rfl

theorem forall_signatureParameters_ofMethods {isStatic : Bool} {table : MethodTable}
    {p : List String → Prop} :
    (∀ x ∈ Member.ofMethods s (Target.ofId id).mapping isStatic table,
        ∀ names ∈ id.signatureParameters x, p names) ↔
      ∀ overloads ∈ table.values, ∀ sig ∈ overloads, p (id.receiver isStatic ++
        sig.arguments.map fun a => (Target.ofId id).identifiers.member a.1) := by
  simp only [Member.ofMethods, Member.ofMethod, List.forall_mem_flatMap, List.forall_mem_map,
    signatureParameters, List.forall_mem_singleton, Mapping.printArguments_eq_map,
    TypeExpr.shapeArguments_eq_map, List.map_map, Function.comp_def, escape_apply,
    OrderedMap.forall_mem_values]

/-- Where distinct arguments get distinct identifiers, only equal arguments and the receiver are
left to clash. -/
theorem nodup_parameters_iff {sig : Signature} (isStatic : Bool)
    (h : Set.InjOn (Target.ofId id).identifiers.member {n | n ∈ sig.arguments.map Prod.fst}) :
    (id.receiver isStatic ++
        sig.arguments.map fun a => (Target.ofId id).identifiers.member a.1).Nodup ↔
      (sig.arguments.map Prod.fst).Nodup ∧
        (id = .python → isStatic = false → ∀ a ∈ sig.arguments,
          Python.identifiers.member a.1 ≠ "self") := by
  have hnames : (sig.arguments.map fun a => (Target.ofId id).identifiers.member a.1).Nodup ↔
      (sig.arguments.map Prod.fst).Nodup := by
    have hmap : (sig.arguments.map fun a => (Target.ofId id).identifiers.member a.1) =
        (sig.arguments.map Prod.fst).map (Target.ofId id).identifiers.member := by
      rw [List.map_map]
      rfl
    rw [hmap]
    exact ⟨List.Nodup.of_map _, List.Nodup.map_on fun x hx y hy => h hx hy⟩
  cases id with
  | typescript => simpa [receiver] using hnames
  | python =>
      cases isStatic with
      | true => simpa [receiver] using hnames
      | false =>
          rw [receiver, if_neg (by decide), List.singleton_append, List.nodup_cons, hnames,
            and_comm]
          refine and_congr_right fun _ => ?_
          simp only [List.mem_map, not_exists, not_and, forall_const]
          rfl

theorem nodup_signatureParameters_ofMethods (isStatic : Bool) {table : MethodTable}
    (h : ∀ overloads ∈ table.values, ∀ sig ∈ overloads,
      Set.InjOn (Target.ofId id).identifiers.member {n | n ∈ sig.arguments.map Prod.fst}) :
    (∀ x ∈ Member.ofMethods s (Target.ofId id).mapping isStatic table,
        ∀ names ∈ id.signatureParameters x, names.Nodup) ↔
      (∀ overloads ∈ table.values, ∀ sig ∈ overloads, (sig.arguments.map Prod.fst).Nodup) ∧
        (id = .python → isStatic = false → ∀ overloads ∈ table.values, ∀ sig ∈ overloads,
          ∀ a ∈ sig.arguments, Python.identifiers.member a.1 ≠ "self") := by
  rw [forall_signatureParameters_ofMethods]
  constructor
  · intro hall
    have hsig := fun o (ho : o ∈ table.values) sig (hs : sig ∈ o) =>
      (nodup_parameters_iff isStatic (h o ho sig hs)).1 (hall o ho sig hs)
    exact ⟨fun o ho sig hs => (hsig o ho sig hs).1,
      fun hid hstatic o ho sig hs => (hsig o ho sig hs).2 hid hstatic⟩
  · rintro ⟨hnodup, hreceiver⟩ o ho sig hs
    exact (nodup_parameters_iff isStatic (h o ho sig hs)).2
      ⟨hnodup o ho sig hs, fun hid hstatic => hreceiver hid hstatic o ho sig hs⟩

theorem nodup_signatureParameters_iff (h : s.Sound (Target.ofId id).identifiers) :
    (∀ st ∈ id.statements s, ∀ x ∈ st.members, ∀ names ∈ id.signatureParameters x, names.Nodup) ↔
      (∀ sig, s.HasSignature sig → (sig.arguments.map Prod.fst).Nodup) ∧
      (id = .python → ∀ sig, s.HasInstanceSignature sig → ∀ a ∈ sig.arguments,
        Python.identifiers.member a.1 ≠ "self") := by
  have hstatic (c : Class) (hc : c ∈ s.classes.values) :=
    nodup_signatureParameters_ofMethods (s := s) true fun o ho sig hs =>
      h.argumentsApart sig (.staticMethod hc ho hs)
  have hmethods (c : Class) (hc : c ∈ s.classes.values) :=
    nodup_signatureParameters_ofMethods (s := s) false fun o ho sig hs =>
      h.argumentsApart sig (.method hc ho hs)
  have hinterface (i : Interface) (hi : i ∈ s.interfaces.values) :=
    nodup_signatureParameters_ofMethods (s := s) false fun o ho sig hs =>
      h.argumentsApart sig (.interfaceMethod hi ho hs)
  rw [forall_members_statements fun _ _ _ => List.forall_mem_nil _,
    Spec.forall_hasInstanceSignature_iff, Spec.forall_hasSignature_iff]
  constructor
  · rintro ⟨hclasses, hinterfaces⟩
    have hstatics := fun c hc => (hstatic c hc).1 (hclasses c hc).1
    have hinstances := fun c hc => (hmethods c hc).1 (hclasses c hc).2
    have hdeclared := fun i hi => (hinterface i hi).1 (hinterfaces i hi)
    exact ⟨⟨fun c hc => (hinstances c hc).1, fun c hc => (hstatics c hc).1,
      fun i hi => (hdeclared i hi).1⟩, fun hid => ⟨fun c hc => (hinstances c hc).2 hid rfl,
      fun i hi => (hdeclared i hi).2 hid rfl⟩⟩
  · rintro ⟨⟨hinstances, hstatics, hdeclared⟩, hreceiver⟩
    refine ⟨fun c hc => ⟨?_, ?_⟩, fun i hi => ?_⟩
    · exact (hstatic c hc).2 ⟨hstatics c hc, nofun⟩
    · exact (hmethods c hc).2 ⟨hinstances c hc, fun hid _ => (hreceiver hid).1 c hc⟩
    · exact (hinterface i hi).2 ⟨hdeclared i hi, fun hid _ => (hreceiver hid).2 i hi⟩

theorem nodup_functionParameters_iff :
    (∀ st ∈ id.statements s, ∀ x ∈ st.shapes, ∀ names ∈ id.functionParameters x, names.Nodup) ↔
      (id = .typescript → ∀ t, s.HasType t → ∀ arguments result isConst isNoExcept,
        TypeExpr.Written TypeScript.mapping.vocabulary
          (.function arguments result isConst isNoExcept) t →
        (arguments.map fun a => Naming.camelCase a.1).Nodup) := by
  cases id with
  | typescript =>
      have hdeclared : ∀ entry ∈ s.classes.entries, entry.2.sharedName.isSome = true →
          ∀ names ∈ functionParameters .typescript (.declared entry.1), names.Nodup :=
        fun _ _ _ => List.forall_mem_nil _
      have htypes : (∀ t, s.HasType t → ∀ names ∈ functionParameters .typescript
            (t.shape s TypeScript.mapping), names.Nodup) ↔
          ∀ t, s.HasType t → ∀ arguments result isConst isNoExcept,
            TypeExpr.Written TypeScript.mapping.vocabulary
              (.function arguments result isConst isNoExcept) t →
            (arguments.map fun a => Naming.camelCase a.1).Nodup :=
        forall₂_congr fun t _ => TypeExpr.forall_functionParameters_shape t
      rw [forall_shapes_statements]
      exact (and_iff_left hdeclared).trans (htypes.trans ⟨fun hall _ => hall, fun hall => hall rfl⟩)
  | python => exact iff_of_true (fun _ _ _ _ => List.forall_mem_nil _) nofun

end TargetId

namespace TargetReport

/-- No list of parameters in the declarations of a spec without violations has two of one name,
exactly if the spec keeps apart what validation does not look at. -/
theorem parameters_nodup_iff (id : TargetId) (s : Spec) (bridgeModule : Option String)
    (shelf : Shelf) (h : s.validate (Target.ofId id).identifiers = []) :
    (∃ u, (generate (.ofId id) s bridgeModule Sink.memory shelf).state.get? id.declarationUnit =
      some u ∧ u.lines = (id.statements s).flatMap id.write) ∧
    ((∀ st ∈ id.statements s, ∀ names ∈ id.parameterLists st, names.Nodup) ↔
      s.ParametersApart id) := by
  have hsound := (s.validate_eq_nil_iff _).1 h
  have hsplit : (∀ st ∈ id.statements s, ∀ names ∈ id.parameterLists st, names.Nodup) ↔
      (∀ st ∈ id.statements s, ∀ x ∈ st.members, ∀ names ∈ id.signatureParameters x,
        names.Nodup) ∧
      ∀ st ∈ id.statements s, ∀ x ∈ st.shapes, ∀ names ∈ id.functionParameters x, names.Nodup := by
    rw [← forall₂_and]
    refine forall₂_congr fun st _ => ?_
    have hinitializer : ∀ names ∈ id.initializerParameters st, names.Nodup := by
      unfold TargetId.initializerParameters
      split <;> simp
    rw [TargetId.parameterLists, List.forall_mem_append, List.forall_mem_append,
      List.forall_mem_flatMap, List.forall_mem_flatMap, and_iff_right hinitializer]
  refine ⟨declarationUnit_lines id s bridgeModule shelf h, ?_⟩
  rw [hsplit, TargetId.nodup_signatureParameters_iff hsound, TargetId.nodup_functionParameters_iff]
  constructor
  · rintro ⟨⟨harguments, hreceiver⟩, hfunctions⟩
    exact ⟨harguments, hreceiver, hfunctions⟩
  · rintro ⟨harguments, hreceiver, hfunctions⟩
    exact ⟨⟨harguments, hreceiver⟩, hfunctions⟩

/-- Methods with several parameters, one of which is a function. -/
def listenerSpec : Spec where
  classes := .ofList [("Store", {
    staticMethods := .ofList [("open", [{
      arguments := [("self", .named "std::string"), ("read_only", .named "bool")]
      result := .named "Store" }])]
    methods := .ofList [("move", [{
      arguments := [("from", .named "int"), ("to", .named "int")], result := .named "void" }])] })]
  interfaces := .ofList [("Listener", ⟨.ofList [("add", [{
    arguments := [("on_change", .applied "util::Optional" [.function
      [("is_open", .named "bool"), ("is_new", .named "bool")] (.named "void") false false])]
    result := .named "void" }])]⟩)]

theorem parameters_nodup_listenerSpec :
    (∀ id, listenerSpec.validate (Target.ofId id).identifiers = []) ∧
    ∀ id : TargetId, ∀ st ∈ id.statements listenerSpec, ∀ names ∈ id.parameterLists st,
      names.Nodup := by
  have h : ∀ id, listenerSpec.validate (Target.ofId id).identifiers = [] := by
    intro id
    cases id <;> decide +kernel
  have hfunctions : ∀ t, listenerSpec.HasType t → ∀ arguments result isConst isNoExcept,
      TypeExpr.Written TypeScript.mapping.vocabulary
        (.function arguments result isConst isNoExcept) t →
      (arguments.map fun a => Naming.camelCase a.1).Nodup := by
    intro t ht
    refine (@TypeExpr.forall_functionParameters_shape listenerSpec _ List.Nodup t).1 ?_
    revert t
    exact Spec.forall_hasType_iff_entities.2 (by decide +kernel)
  refine ⟨h, fun id => (parameters_nodup_iff id listenerSpec none ∅ (h id)).2.2 ?_⟩
  exact {
    arguments := Spec.forall_hasSignature_iff.2 (by decide +kernel)
    receiver := fun _ => Spec.forall_hasInstanceSignature_iff.2 (by decide +kernel)
    functions := fun _ => hfunctions }

/-- A class with parameters of one name: two of a method, one that is the receiver in Python, and
two of a function that differ in case only. -/
def clashClass : Class where
  properties := .ofList [("on_open", .function
    [("is_new", .named "bool"), ("isNew", .named "bool")] (.named "void") false false)]
  methods := .ofList [
    ("move", [{ arguments := [("by", .named "int"), ("by", .named "int")]
                result := .named "void" }]),
    ("bind", [{ arguments := [("self", .named "int")], result := .named "void" }])]

def clashSpec : Spec where
  classes := .ofList [("Store", clashClass)]

theorem parameters_repeated_clashSpec :
    (∀ id, clashSpec.validate (Target.ofId id).identifiers = []) ∧
    (∃ st ∈ TypeScript.statements clashSpec,
      TargetId.typescript.parameterLists st = [["by", "by"], ["self"], ["isNew", "isNew"]] ∧
      TypeScript.write st = ["export class Store \x7b",
        "  onOpen: (isNew: boolean, isNew: boolean) => void;",
        "  move(by: number, by: number): void;", "  bind(self: number): void;", "\x7d"]) ∧
    ∃ st ∈ Python.statements clashSpec,
      TargetId.python.parameterLists st = [["self", "by", "by"], ["self", "self"]] ∧
      Python.write st = ["class Store:", "    on_open: Callable[[bool, bool], None]",
        "    def move(self, by: int, by: int) -> None: ...",
        "    def bind(self, self: int) -> None: ...", ""] := by
  have hmem (id : TargetId) :
      Statement.ofClass clashSpec (Target.ofId id).mapping ("Store", clashClass) ∈
        id.statements clashSpec :=
    Statement.objectClass_mem_statements_iff.2 ⟨_, List.mem_cons_self, rfl⟩
  refine ⟨fun id => by cases id <;> decide +kernel, ⟨_, hmem .typescript, ?_, ?_⟩,
    ⟨_, hmem .python, ?_, ?_⟩⟩
  · decide +kernel
  · decide +kernel
  · decide +kernel
  · decide +kernel

end TargetReport

end Bindery
