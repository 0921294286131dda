import Bindery.Proofs.OrderedMap
import Bindery.Proofs.Spec.TypeExpr
import Bindery.Proofs.Validation.Collisions

/-!
# What validation accepts

`Spec.Sound` says without any check which specs can be written under some identifiers.
`validate_eq_nil_iff`: these are the specs that validation has nothing against.
-/

namespace Bindery

/-! ## Places in a spec -/

namespace Spec

/-- `sig` is an overload of some method of a class or an interface. -/
inductive HasSignature (s : Spec) (sig : Signature) : Prop where
  | method {c overloads} : c ∈ s.classes.values → overloads ∈ c.methods.values →
      sig ∈ overloads → HasSignature s sig
  | staticMethod {c overloads} : c ∈ s.classes.values → overloads ∈ c.staticMethods.values →
      sig ∈ overloads → HasSignature s sig
  | interfaceMethod {i overloads} : i ∈ s.interfaces.values → overloads ∈ i.methods.values →
      sig ∈ overloads → HasSignature s sig

/-- `t` is the type of a field, a property, an argument, a result or an alias. -/
inductive HasType (s : Spec) (t : TypeExpr) : Prop where
  | field {r f} : r ∈ s.records.values → f ∈ r.fields.values → f.type = t → HasType s t
  | property {c} : c ∈ s.classes.values → t ∈ c.properties.values → HasType s t
  | argument {sig} : HasSignature s sig → t ∈ sig.arguments.map Prod.snd → HasType s t
  | result {sig} : HasSignature s sig → sig.result = t → HasType s t
  | typeAlias : t ∈ s.aliases.values → HasType s t

end Spec

/-! ## Soundness -/

/-- The members of a flag enumeration have integers, unless there are none; those of a plain one
are just names. -/
structure Enumeration.ValuesFit (e : Enumeration) : Prop where
  flag : e.isFlag = true → e.members = .plain [] ∨ ∃ values, e.members = .valued values ∧
    ∀ value ∈ values.values, ∃ i, value = some (.integer i)
  plain : e.isFlag = false → ∃ names, e.members = .plain names

/-- A field with a default has a type of which there are values to write. -/
def RecordField.DefaultAllowed (s : Spec) (f : RecordField) : Prop :=
  f.default.isSome = true →
    (∀ arguments result isConst isNoExcept,
      f.type ≠ .function arguments result isConst isNoExcept) ∧
    ∀ path isConst indirection, f.type = .name path isConst indirection →
      joinPath path ∉ s.opaqueTypes

/-- What a spec must be like to be written with the identifiers that `rules` make. -/
structure Spec.Sound (s : Spec) (rules : IdentifierRules) : Prop where
  declaredOnce : s.declaredNames.Nodup
  entitiesApart : Set.InjOn entityIdentifier {n | n ∈ s.declaredNames}
  valuesFit : ∀ e ∈ s.enumerations.values, e.ValuesFit
  constantsApart : ∀ e ∈ s.enumerations.values, Set.InjOn rules.enumMember {n | n ∈ e.memberNames}
  fieldsApart : ∀ r ∈ s.records.values, Set.InjOn rules.member {n | n ∈ r.fields.keys}
  membersApart : ∀ c ∈ s.classes.values,
    Set.InjOn rules.member {n | n ∈ c.properties.keys ∨ n ∈ c.methods.keys}
  staticMethodsApart : ∀ c ∈ s.classes.values, Set.InjOn rules.member {n | n ∈ c.staticMethods.keys}
  interfaceMethodsApart : ∀ i ∈ s.interfaces.values,
    Set.InjOn rules.member {n | n ∈ i.methods.keys}
  argumentsApart : ∀ sig, s.HasSignature sig →
    Set.InjOn rules.member {n | n ∈ sig.arguments.map Prod.fst}
  defaultsAllowed : ∀ r ∈ s.records.values, ∀ f ∈ r.fields.values, f.DefaultAllowed s
  wellNamed : ∀ t, s.HasType t → t.WellNamed

/-! ## One check after the other -/

namespace Validation

variable {s : Spec} {rules : IdentifierRules}

theorem ofTypes_eq_flatMap (location : String) (ts : List TypeExpr) :
    ofTypes location ts = ts.flatMap (ofType location) := by
  induction ts with
  | nil => rfl
  | cons t ts ih => simp [ofTypes, ih]

theorem ofArguments_eq_flatMap (location : String) (arguments : List (String × TypeExpr)) :
    ofArguments location arguments = arguments.flatMap fun a => ofType location a.2 := by
  induction arguments with
  | nil => rfl
  | cons a arguments ih => simp [ofArguments, ih]

theorem all_isEmpty_eq_false_iff {path : List String} :
    path.all String.isEmpty = false ↔ ∃ part ∈ path, part ≠ "" := by
  simp [List.all_eq_false]

theorem ofType_eq_nil_iff {location : String} (t : TypeExpr) :
    ofType location t = [] ↔ t.WellNamed := by
  induction t with
  | name path isConst indirection =>
      rw [TypeExpr.wellNamed_name, ← all_isEmpty_eq_false_iff, ofType]
      cases path.all String.isEmpty <;> simp
  | template path arguments isConst ih =>
      rw [TypeExpr.wellNamed_template, ← all_isEmpty_eq_false_iff, ofType, ofTypes_eq_flatMap,
        List.append_eq_nil_iff, List.flatMap_eq_nil_iff, forall₂_congr ih]
      cases path.all String.isEmpty <;> simp
  | function arguments result isConst isNoExcept hargs hresult =>
      rw [TypeExpr.wellNamed_function, ofType, ofArguments_eq_flatMap, List.append_eq_nil_iff,
        List.flatMap_eq_nil_iff, forall₂_congr hargs, hresult]

theorem ofFlagValue_eq_nil_iff {name member : String} {value : Option Number} :
    ofFlagValue name member value = [] ↔ ∃ i, value = some (.integer i) := by
  cases value with
  | none => simp [ofFlagValue]
  | some n => cases n <;> simp [ofFlagValue, Number.literal?]

theorem ofMemberValues_eq_nil_iff {name : String} {e : Enumeration} :
    ofMemberValues name e = [] ↔ e.ValuesFit := by
  obtain ⟨isFlag, members⟩ := e
  cases isFlag with
  | false =>
      constructor
      · intro h
        cases members with
        | plain names => exact ⟨by simp, fun _ => ⟨names, rfl⟩⟩
        | valued values => simp [ofMemberValues] at h
      · intro h
        obtain ⟨names, hnames⟩ := h.plain rfl
        cases hnames
        rfl
  | true =>
      cases members with
      | plain names =>
          constructor
          · intro h
            have hnil : names = [] := by simpa [ofMemberValues] using h
            exact ⟨fun _ => .inl (by rw [hnil]), by simp⟩
          · intro h
            obtain hnil | ⟨values, hvalues, _⟩ := h.flag rfl
            · simpa [ofMemberValues] using hnil
            · cases hvalues
      | valued values =>
          have hcheck : ofMemberValues name ⟨true, .valued values⟩ = [] ↔
              ∀ value ∈ values.values, ∃ i, value = some (.integer i) := by
            simp only [ofMemberValues, List.flatMap_eq_nil_iff, ofFlagValue_eq_nil_iff,
              OrderedMap.forall_mem_values]
          rw [hcheck]
          constructor
          · intro h
            exact ⟨fun _ => .inr ⟨values, rfl, h⟩, by simp⟩
          · intro h
            obtain hnil | ⟨_, hvalues, hints⟩ := h.flag rfl
            · cases hnil
            · cases hvalues
              exact hints

theorem ofEnumeration_eq_nil_iff {name : String} {e : Enumeration} :
    ofEnumeration rules name e = [] ↔
      Set.InjOn rules.enumMember {n | n ∈ e.memberNames} ∧ e.ValuesFit := by
  rw [ofEnumeration, List.append_eq_nil_iff, collisions_eq_nil_iff, ofMemberValues_eq_nil_iff]

theorem defaultObstacle_eq_none_iff {t : TypeExpr} :
    defaultObstacle s t = none ↔
      (∀ arguments result isConst isNoExcept, t ≠ .function arguments result isConst isNoExcept) ∧
      ∀ path isConst indirection, t = .name path isConst indirection →
        joinPath path ∉ s.opaqueTypes := by
  cases t with
  | name path isConst indirection => simp [defaultObstacle, Spec.isOpaque]
  | template path arguments isConst => simp [defaultObstacle]
  | function arguments result isConst isNoExcept =>
      refine iff_of_false (by simp [defaultObstacle]) ?_
      rintro ⟨h, _⟩
      exact h _ _ _ _ rfl

theorem ofField_eq_nil_iff {owner name : String} {f : RecordField} :
    ofField s owner name f = [] ↔ f.type.WellNamed ∧ f.DefaultAllowed s := by
  rw [ofField, List.append_eq_nil_iff, ofType_eq_nil_iff, RecordField.DefaultAllowed,
    ← defaultObstacle_eq_none_iff]
  cases f.default <;> cases defaultObstacle s f.type <;> simp

theorem ofRecord_eq_nil_iff {name : String} {r : Record} :
    ofRecord s rules name r = [] ↔
      (∀ f ∈ r.fields.values, f.type.WellNamed ∧ f.DefaultAllowed s) ∧
      Set.InjOn rules.member {n | n ∈ r.fields.keys} := by
  simp only [ofRecord, List.append_eq_nil_iff, List.flatMap_eq_nil_iff, ofField_eq_nil_iff,
    collisions_eq_nil_iff, OrderedMap.forall_mem_values]

/-- A signature of which every type has names and every argument an identifier of its own. -/
def SignatureSound (rules : IdentifierRules) (sig : Signature) : Prop :=
  (∀ t ∈ sig.arguments.map Prod.snd, t.WellNamed) ∧ sig.result.WellNamed ∧
    Set.InjOn rules.member {n | n ∈ sig.arguments.map Prod.fst}

theorem ofSignature_eq_nil_iff {location : String} {sig : Signature} :
    ofSignature rules location sig = [] ↔ SignatureSound rules sig := by
  simp only [ofSignature, List.append_eq_nil_iff, ofArguments_eq_flatMap, List.flatMap_eq_nil_iff,
    ofType_eq_nil_iff, collisions_eq_nil_iff, SignatureSound, List.forall_mem_map, and_assoc]

theorem ofMethods_eq_nil_iff {scope : String} {table : MethodTable} :
    ofMethods rules scope table = [] ↔
      ∀ overloads ∈ table.values, ∀ sig ∈ overloads, SignatureSound rules sig := by
  simp only [ofMethods, List.flatMap_eq_nil_iff, ofSignature_eq_nil_iff,
    OrderedMap.forall_mem_values]

theorem ofClass_eq_nil_iff {name : String} {c : Class} :
    ofClass rules name c = [] ↔
      (∀ t ∈ c.properties.values, t.WellNamed) ∧
      (∀ overloads ∈ c.methods.values, ∀ sig ∈ overloads, SignatureSound rules sig) ∧
      (∀ overloads ∈ c.staticMethods.values, ∀ sig ∈ overloads, SignatureSound rules sig) ∧
      Set.InjOn rules.member {n | n ∈ c.properties.keys ∨ n ∈ c.methods.keys} ∧
      Set.InjOn rules.member {n | n ∈ c.staticMethods.keys} := by
  simp only [ofClass, List.append_eq_nil_iff, List.flatMap_eq_nil_iff, ofType_eq_nil_iff,
    ofMethods_eq_nil_iff, collisions_eq_nil_iff, List.mem_append, OrderedMap.forall_mem_values,
    and_assoc]

theorem ofInterface_eq_nil_iff {name : String} {i : Interface} :
    ofInterface rules name i = [] ↔
      (∀ overloads ∈ i.methods.values, ∀ sig ∈ overloads, SignatureSound rules sig) ∧
      Set.InjOn rules.member {n | n ∈ i.methods.keys} := by
  rw [ofInterface, List.append_eq_nil_iff, ofMethods_eq_nil_iff, collisions_eq_nil_iff]

end Validation

/-! ## All checks together -/

open Validation

namespace Spec

variable {s : Spec} {rules : IdentifierRules}

/-- Every signature is sound exactly if those of each class and of each interface are. -/
theorem forall_hasSignature_iff {p : Signature → Prop} :
    (∀ sig, s.HasSignature sig → p sig) ↔
      (∀ c ∈ s.classes.values, ∀ overloads ∈ c.methods.values, ∀ sig ∈ overloads, p sig) ∧
      (∀ c ∈ s.classes.values, ∀ overloads ∈ c.staticMethods.values, ∀ sig ∈ overloads, p sig) ∧
      ∀ i ∈ s.interfaces.values, ∀ overloads ∈ i.methods.values, ∀ sig ∈ overloads, p sig := by
  constructor
  · intro h
    exact ⟨fun c hc o ho sig hsig => h sig (.method hc ho hsig),
      fun c hc o ho sig hsig => h sig (.staticMethod hc ho hsig),
      fun i hi o ho sig hsig => h sig (.interfaceMethod hi ho hsig)⟩
  · rintro ⟨hmethods, hstatic, hinterface⟩ sig hsig
    cases hsig with
    | method hc ho hsig => exact hmethods _ hc _ ho _ hsig
    | staticMethod hc ho hsig => exact hstatic _ hc _ ho _ hsig
    | interfaceMethod hi ho hsig => exact hinterface _ hi _ ho _ hsig

theorem forall_hasType_iff {p : TypeExpr → Prop} :
    (∀ t, s.HasType t → p t) ↔
      (∀ r ∈ s.records.values, ∀ f ∈ r.fields.values, p f.type) ∧
      (∀ c ∈ s.classes.values, ∀ t ∈ c.properties.values, p t) ∧
      (∀ sig, s.HasSignature sig → (∀ t ∈ sig.arguments.map Prod.snd, p t) ∧ p sig.result) ∧
      ∀ t ∈ s.aliases.values, p t := by
  constructor
  · intro h
    exact ⟨fun r hr f hf => h _ (.field hr hf rfl), fun c hc t ht => h t (.property hc ht),
      fun sig hsig => ⟨fun t ht => h t (.argument hsig ht), h _ (.result hsig rfl)⟩,
      fun t ht => h t (.typeAlias ht)⟩
  · rintro ⟨hfields, hproperties, hsignatures, haliases⟩ t ht
    cases ht with
    | field hr hf heq => exact heq ▸ hfields _ hr _ hf
    | property hc ht => exact hproperties _ hc t ht
    | argument hsig ht => exact (hsignatures _ hsig).1 t ht
    | result hsig heq => exact heq ▸ (hsignatures _ hsig).2
    | typeAlias ht => exact haliases t ht

/-- The violations of a spec are those of its parts. -/
theorem validate_eq_nil_iff_parts :
    s.validate rules = [] ↔
      ofDeclarations s = [] ∧
      (∀ e ∈ s.enumerations.values, Set.InjOn rules.enumMember {n | n ∈ e.memberNames} ∧
        e.ValuesFit) ∧
      (∀ r ∈ s.records.values, (∀ f ∈ r.fields.values, f.type.WellNamed ∧ f.DefaultAllowed s) ∧
        Set.InjOn rules.member {n | n ∈ r.fields.keys}) ∧
      (∀ c ∈ s.classes.values, (∀ t ∈ c.properties.values, t.WellNamed) ∧
        (∀ overloads ∈ c.methods.values, ∀ sig ∈ overloads, SignatureSound rules sig) ∧
        (∀ overloads ∈ c.staticMethods.values, ∀ sig ∈ overloads, SignatureSound rules sig) ∧
        Set.InjOn rules.member {n | n ∈ c.properties.keys ∨ n ∈ c.methods.keys} ∧
        Set.InjOn rules.member {n | n ∈ c.staticMethods.keys}) ∧
      (∀ i ∈ s.interfaces.values,
        (∀ overloads ∈ i.methods.values, ∀ sig ∈ overloads, SignatureSound rules sig) ∧
        Set.InjOn rules.member {n | n ∈ i.methods.keys}) ∧
      ∀ t ∈ s.aliases.values, t.WellNamed := by
  simp only [validate, List.append_eq_nil_iff, List.flatMap_eq_nil_iff, ofEnumeration_eq_nil_iff,
    ofRecord_eq_nil_iff, ofClass_eq_nil_iff, ofInterface_eq_nil_iff, ofType_eq_nil_iff,
    OrderedMap.forall_mem_values, and_assoc]

/-- Validation accepts exactly the sound specs. -/
theorem validate_eq_nil_iff (s : Spec) (rules : IdentifierRules) :
    s.validate rules = [] ↔ s.Sound rules := by
  rw [validate_eq_nil_iff_parts, ofDeclarations_eq_nil_iff]
  constructor
  · rintro ⟨⟨hnodup, hentities⟩, henums, hrecords, hclasses, hinterfaces, haliases⟩
    have hsigs : ∀ sig, s.HasSignature sig → SignatureSound rules sig :=
      forall_hasSignature_iff.2 ⟨fun c hc => (hclasses c hc).2.1,
        fun c hc => (hclasses c hc).2.2.1, fun i hi => (hinterfaces i hi).1⟩
    exact {
      declaredOnce := hnodup
      entitiesApart := hentities
      valuesFit := fun e he => (henums e he).2
      constantsApart := fun e he => (henums e he).1
      fieldsApart := fun r hr => (hrecords r hr).2
      membersApart := fun c hc => (hclasses c hc).2.2.2.1
      staticMethodsApart := fun c hc => (hclasses c hc).2.2.2.2
      interfaceMethodsApart := fun i hi => (hinterfaces i hi).2
      argumentsApart := fun sig hsig => (hsigs sig hsig).2.2
      defaultsAllowed := fun r hr f hf => ((hrecords r hr).1 f hf).2
      wellNamed := forall_hasType_iff.2 ⟨fun r hr f hf => ((hrecords r hr).1 f hf).1,
        fun c hc => (hclasses c hc).1,
        fun sig hsig => ⟨(hsigs sig hsig).1, (hsigs sig hsig).2.1⟩, haliases⟩ }
  · intro h
    obtain ⟨hfields, hproperties, hsignatures, haliases⟩ := forall_hasType_iff.1 h.wellNamed
    obtain ⟨hmethods, hstatic, hinterface⟩ := forall_hasSignature_iff.1 fun sig hsig =>
      show SignatureSound rules sig from
        ⟨(hsignatures sig hsig).1, (hsignatures sig hsig).2, h.argumentsApart sig hsig⟩
    refine ⟨⟨h.declaredOnce, h.entitiesApart⟩, ?_, ?_, ?_, ?_, haliases⟩
    · exact fun e he => ⟨h.constantsApart e he, h.valuesFit e he⟩
    · exact fun r hr => ⟨fun f hf => ⟨hfields r hr f hf, h.defaultsAllowed r hr f hf⟩,
        h.fieldsApart r hr⟩
    · exact fun c hc => ⟨hproperties c hc, hmethods c hc, hstatic c hc, h.membersApart c hc,
        h.staticMethodsApart c hc⟩
    · exact fun i hi => ⟨hinterface i hi, h.interfaceMethodsApart i hi⟩

end Spec

end Bindery
