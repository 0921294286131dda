import Bindery.Proofs.Spec.TypeReading
import Bindery.Spec.File

/-!
# Specs read back

`Spec.parse_toJson`: what a spec is written as is read as that spec.
-/

namespace Bindery

/-- A number that JSON text keeps as it is. -/
def Number.IsWord : Number → Prop
  | .integer i => Json.FitsWord i
  | .real _ => False

instance (n : Number) : Decidable n.IsWord :=
  match n with
  | .integer i => inferInstanceAs (Decidable (Json.FitsWord i))
  | .real _ => inferInstanceAs (Decidable False)

/-- Every member of an enumeration has such a number or none. -/
def Members.HasWords : Members → Prop
  | .plain _ => True
  | .valued values => ∀ value ∈ values.values, ∀ n ∈ value, n.IsWord

instance (m : Members) : Decidable m.HasWords :=
  match m with
  | .plain _ => inferInstanceAs (Decidable True)
  | .valued values =>
    inferInstanceAs (Decidable (∀ value ∈ values.values, ∀ n ∈ value, n.IsWord))

/-- A value is read back from what it is written as, where it may be taken in. -/
structure Decodes {α : Type} (read : Reading → Node → Except Fault α) (toJson : α → Json)
    (a : α) : Prop where
  spelt : (toJson a).Spelt
  decodes : ∀ r : Reading, r.HasRoom (toJson a).node → read r (toJson a).node = .ok a

namespace Decodes

variable {α : Type} {read : Reading → Node → Except Fault α} {toJson : α → Json}

theorem string (s : String) : Decodes Reading.string Json.string s :=
  ⟨Json.spelt_string s, fun _ _ => rfl⟩

theorem list {as : List α} (h : ∀ a ∈ as, Decodes read toJson a) :
    Decodes (Reading.list read) (fun as => .list (as.map toJson)) as where
  spelt := Json.spelt_list (List.forall_mem_map.2 fun a ha => (h a ha).spelt)
  decodes r hroom := by
    have hnode : (Json.list (as.map toJson)).node = .list (as.map fun a => (toJson a).node) := by
      simp [Json.node, Json.itemNodes_eq_map]
    simp only [hnode] at hroom ⊢
    exact Reading.list_map fun a ha => (h a ha).decodes _ (hroom.item (List.mem_map_of_mem ha))

theorem strings (names : List String) : Decodes (Reading.list Reading.string) Json.strings names :=
  list fun name _ => string name

theorem map {m : OrderedMap α} (h : ∀ a ∈ m.values, Decodes read toJson a) :
    Decodes (Reading.map read) (OrderedMap.toJson toJson) m where
  spelt := Json.spelt_object (List.forall_mem_map.2 fun e he =>
    (OrderedMap.forall_mem_values.1 h e he).spelt)
  decodes r hroom := by
    have hnode : (m.toJson toJson).node =
        .table (m.entries.map fun e => (some e.1, (toJson e.2).node)) := by
      simp [OrderedMap.toJson, Json.node, Json.memberNodes_eq_map]
    rw [hnode] at hroom ⊢
    refine Reading.map_table (fun a => (toJson a).node) fun e he => ?_
    have hentry := hroom.entry
      (List.mem_map_of_mem (f := fun e => (some e.1, (toJson e.2).node)) he)
    exact (OrderedMap.forall_mem_values.1 h e he).decodes _ hentry

theorem option {o : Option α} (h : ∀ a ∈ o, Decodes read toJson a)
    (hnull : ∀ a ∈ o, (toJson a).node ≠ .null) :
    Decodes (Reading.option read) (Json.ofOption toJson) o := by
  cases o with
  | none => exact ⟨.null, fun _ _ => rfl⟩
  | some a =>
      obtain ⟨hspelt, hdecodes⟩ := h a rfl
      refine ⟨hspelt, fun r hroom => ?_⟩
      have hread : Reading.option read r (toJson a).node = some <$> read r (toJson a).node := by
        rw [Reading.option]
        exact hnull a rfl
      rw [Json.ofOption, hread, hdecodes r hroom]
      rfl

theorem type (t : TypeExpr) : Decodes TypeExpr.read TypeExpr.toJson t :=
  ⟨TypeExpr.spelt_toJson t, fun _ => TypeExpr.read_toJson⟩

/-! ## Methods and fields -/

theorem signature (s : Signature) : Decodes Signature.read Signature.toJson s where
  spelt := by
    have harguments : (Json.list (TypeExpr.argumentsToJson s.arguments)).Spelt := by
      rw [TypeExpr.argumentsToJson_eq_map]
      refine Json.spelt_list (List.forall_mem_map.2 fun a _ => Json.spelt_object ?_)
      simp [Json.spelt_string, TypeExpr.spelt_toJson]
    refine Json.spelt_object ?_
    simp [harguments, Json.spelt_bool, TypeExpr.spelt_toJson]
  decodes r hroom := by
    have hnode : s.toJson.node = .table [
        (some "arguments", (Json.list (TypeExpr.argumentsToJson s.arguments)).node),
        (some "return", s.result.toJson.node),
        (some "isConst", .bool s.isConst),
        (some "isNoExcept", .bool s.isNoExcept)] := by
      simp only [Signature.toJson, Json.node, Json.memberNodes]
    rw [hnode] at hroom ⊢
    have hrooms := hroom.entries
    simp only [List.forall_mem_cons, TypeExpr.node_argumentsToJson] at hrooms
    obtain ⟨hlist, hresult, -⟩ := hrooms
    have harguments : ∀ a ∈ s.arguments,
        TypeExpr.read r.enter.enter.enter a.2.toJson.node = .ok a.2 := by
      intro a ha
      have hargument := (hlist.item (List.mem_map_of_mem ha)).entries
      simp only [List.forall_mem_cons] at hargument
      exact TypeExpr.read_toJson hargument.2.1
    exact TypeExpr.read_signatureSchema s.isConst s.isNoExcept harguments
      (TypeExpr.read_toJson hresult)

theorem overload (s : Signature) :
    Decodes (MethodTable.overloadSchema.read default) (fun s => .object [("sig", s.toJson)]) s where
  spelt := Json.spelt_object (List.forall_mem_singleton.2 (signature s).spelt)
  decodes r hroom := by
    simp only [Json.node, Json.memberNodes] at hroom ⊢
    have hsig := (signature s).decodes _ (hroom.entry List.mem_cons_self)
    simp [Schema.read, Schema.readEntries, Schema.named?, Schema.missing?,
      MethodTable.overloadSchema, Schema.Field.must, hsig]

theorem methods (table : MethodTable) : Decodes MethodTable.read MethodTable.toJson table :=
  map fun _ _ => list fun s _ => overload s

theorem optionalString (o : Option String) :
    Decodes (Reading.option Reading.string) (Json.ofOption Json.string) o :=
  option (fun s _ => string s) fun _ _ => nofun

theorem recordField (f : RecordField) :
    Decodes (RecordField.schema.read default) RecordField.toJson f where
  spelt := by
    obtain ⟨t, d⟩ := f
    refine Json.spelt_object ?_
    cases d <;> simp [Json.optionalMember, TypeExpr.spelt_toJson, Json.spelt_string]
  decodes r hroom := by
    obtain ⟨t, d⟩ := f
    have htype (h : r.enter.HasRoom t.toJson.node) := (type t).decodes _ h
    cases d with
    | none =>
        simp only [RecordField.toJson, Json.optionalMember, Json.node, Json.memberNodes] at hroom ⊢
        have hrooms := hroom.entries
        simp only [List.forall_mem_cons] at hrooms
        simp [Schema.read, Schema.readEntries, Schema.named?, Schema.missing?, RecordField.schema,
          Schema.Field.must, Schema.Field.may, htype hrooms.1]
        rfl
    | some value =>
        simp only [RecordField.toJson, Json.optionalMember, Json.node, Json.memberNodes] at hroom ⊢
        have hrooms := hroom.entries
        simp only [List.forall_mem_cons] at hrooms
        simp [Schema.read, Schema.readEntries, Schema.named?, Schema.missing?, RecordField.schema,
          Schema.Field.must, Schema.Field.may, htype hrooms.1, Reading.option, Reading.string]

theorem record (x : Record) : Decodes (Record.schema.read {}) Record.toJson x where
  spelt := Json.spelt_object (List.forall_mem_singleton.2 (map fun f _ => recordField f).spelt)
  decodes r hroom := by
    simp only [Record.toJson, Json.node, Json.memberNodes] at hroom ⊢
    have hfields := (map fun f _ => recordField f).decodes _ (hroom.entry List.mem_cons_self)
    simp [Schema.read, Schema.readEntries, Schema.named?, Schema.missing?, Record.schema,
      Schema.Field.may, hfields]

theorem objectClass (c : Class) : Decodes (Class.schema.read {}) Class.toJson c where
  spelt := by
    refine Json.spelt_object ?_
    simp [(methods c.methods).spelt, (methods c.staticMethods).spelt,
      (map fun t _ => type t).spelt, (optionalString c.sharedName).spelt]
  decodes r hroom := by
    simp only [Class.toJson, Json.node, Json.memberNodes] at hroom ⊢
    have hrooms := hroom.entries
    simp only [List.forall_mem_cons] at hrooms
    obtain ⟨hmethods, hstatic, hproperties, hshared, -⟩ := hrooms
    simp [Schema.read, Schema.readEntries, Schema.named?, Schema.missing?, Class.schema,
      Schema.Field.may, (methods c.methods).decodes _ hmethods,
      (methods c.staticMethods).decodes _ hstatic,
      (map fun t _ => type t).decodes _ hproperties,
      (optionalString c.sharedName).decodes _ hshared]

theorem interface (i : Interface) : Decodes (Interface.schema.read {}) Interface.toJson i where
  spelt := Json.spelt_object (List.forall_mem_singleton.2 (methods i.methods).spelt)
  decodes r hroom := by
    simp only [Interface.toJson, Json.node, Json.memberNodes] at hroom ⊢
    have hmethods := (methods i.methods).decodes _ (hroom.entry List.mem_cons_self)
    simp [Schema.read, Schema.readEntries, Schema.named?, Schema.missing?, Interface.schema,
      Schema.Field.may, hmethods]

/-! ## Enumerations -/

theorem number {n : Number} (h : n.IsWord) : Decodes Members.readNumber Number.toJson n := by
  cases n with
  | integer i => exact ⟨Json.spelt_integer h, fun _ _ => rfl⟩
  | real x => exact h.elim

theorem values {values : OrderedMap (Option Number)} (h : (Members.valued values).HasWords) :
    Decodes (Reading.map (Reading.option Members.readNumber))
      (OrderedMap.toJson (Json.ofOption Number.toJson)) values := by
  refine map fun value hvalue => option (fun n hn => number (h value hvalue n hn)) fun n _ => ?_
  cases n <;> nofun

/-- A table is no list, so names are never taken for values, nor values for names. -/
theorem members {m : Members} (h : m.HasWords) : Decodes Members.read Members.toJson m := by
  cases m with
  | plain names =>
      refine ⟨(strings names).spelt, fun r hroom => ?_⟩
      have hhold := hroom.hold (strings names).spelt.readable
      have hlist := (strings names).decodes r.afterHold (.inl rfl)
      simp only [Members.toJson] at hhold ⊢
      simp [Members.read, hhold, hlist]
  | valued table =>
      refine ⟨(values h).spelt, fun r hroom => ?_⟩
      have hhold := hroom.hold (values h).spelt.readable
      have hmap := (values h).decodes r.afterHold (.inl rfl)
      have hlist : r.afterHold.list Reading.string
          (table.toJson (Json.ofOption Number.toJson)).node =
            .error (.invalidType .table "a sequence") := rfl
      simp only [Members.toJson] at hhold ⊢
      simp [Members.read, hhold, hlist, hmap]

theorem enumeration {e : Enumeration} (h : e.members.HasWords) :
    Decodes (Enumeration.schema.read default) Enumeration.toJson e where
  spelt := by
    refine Json.spelt_object ?_
    simp [Json.spelt_bool, (members h).spelt]
  decodes r hroom := by
    simp only [Enumeration.toJson, Json.node, Json.memberNodes] at hroom ⊢
    have hrooms := hroom.entries
    simp only [List.forall_mem_cons] at hrooms
    simp [Schema.read, Schema.readEntries, Schema.named?, Schema.missing?, Enumeration.schema,
      Schema.Field.must, Schema.Field.may, Reading.bool, (members h).decodes _ hrooms.2.1]

end Decodes

/-! ## Specs -/

namespace Spec

variable {s : Spec}

theorem decodes (h : ∀ e ∈ s.enumerations.values, e.members.HasWords) :
    Decodes Spec.read Spec.toJson s where
  spelt := by
    refine Json.spelt_object ?_
    simp [(Decodes.strings _).spelt, (Decodes.map fun x _ => Decodes.record x).spelt,
      (Decodes.map fun c _ => Decodes.objectClass c).spelt,
      (Decodes.map fun i _ => Decodes.interface i).spelt,
      (Decodes.map fun e he => Decodes.enumeration (h e he)).spelt,
      (Decodes.map fun t _ => Decodes.type t).spelt]
  decodes r hroom := by
    simp only [Spec.toJson, Json.node, Json.memberNodes] at hroom ⊢
    have hrooms := hroom.entries
    simp only [List.forall_mem_cons] at hrooms
    obtain ⟨-, -, hrecords, hclasses, hinterfaces, henumerations, haliases, -⟩ := hrooms
    simp [Spec.read, Schema.read, Schema.readEntries, Schema.named?, Schema.missing?, Spec.schema,
      Schema.Field.may, TypeExpr.list_strings,
      (Decodes.map fun x _ => Decodes.record x).decodes _ hrecords,
      (Decodes.map fun c _ => Decodes.objectClass c).decodes _ hclasses,
      (Decodes.map fun i _ => Decodes.interface i).decodes _ hinterfaces,
      (Decodes.map fun e he => Decodes.enumeration (h e he)).decodes _ henumerations,
      (Decodes.map fun t _ => Decodes.type t).decodes _ haliases]

/-- What a spec is written as is read as that spec, unless it opens more containers inside each
other than a document may. -/
theorem parse_toJson (s : Spec) (hvalues : ∀ e ∈ s.enumerations.values, e.members.HasWords)
    (hnesting : s.toJson.node.height ≤ 127) :
    Spec.parse .json s.toJson.compact = .ok s := by
  have hdecodes := decodes hvalues
  have hread : Spec.read .json s.toJson.node = .ok s := hdecodes.decodes .json (.inr hnesting)
  rw [Spec.parse, Format.document, Json.compact, hdecodes.spelt.document]
  simp [Document.read, hread]

/-- Names that need escapes, both kinds of members, and the numbers at the ends of the range. -/
def escapedSpec : Spec where
  primitives := ["int", "\"\\\n\t\x00\x7f é"]
  records := .ofList [("R", { fields := .ofList [
    ("kept", { type := .name ["ns", "T"] true { pointer := true } }),
    ("left", { type := .named "int", default := some "" })] })]
  classes := .ofList [("C", {
    methods := .ofList [("get", [{ result := .named "T", isConst := true },
      { arguments := [("n", .applied "std::vector" [.named "int"])], result := .named "T" }]),
      ("none", [])]
    properties := .ofList [("f", .function [("", .named "R")] (.named "void") false true)]
    sharedName := some "SharedC" })]
  interfaces := .ofList [("I", {})]
  enumerations := .ofList [
    ("Names", ⟨false, .plain []⟩),
    ("Flags", ⟨true, .valued (.ofList [("low", some (.integer (-9223372036854775808))),
      ("open", none), ("high", some (.integer 18446744073709551615))])⟩)]
  opaqueTypes := ["O", "O"]

theorem parse_toJson_escapedSpec :
    Spec.parse .json escapedSpec.toJson.compact = .ok escapedSpec := by
  exact parse_toJson escapedSpec (by decide +kernel) (by decide +kernel)

end Spec

end Bindery
