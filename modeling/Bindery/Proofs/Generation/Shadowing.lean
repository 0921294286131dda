import Bindery.Proofs.Generation.References
import Mathlib.Data.List.Pairwise

/-!
# Members that hide one another

Validation keeps the identifiers of a class apart as far as names differ, and those of static
methods by themselves. `noShadowing_iff`: so members hide one another where a property has the name
of a method, and in Python, where there is one namespace for all, also across the static methods.
-/

namespace Bindery

namespace Member

def name : Member → String
  | .field name _ _ => name
  | .method name _ _ _ _ => name

def isStatic : Member → Bool
  | .field _ _ _ => false
  | .method _ isStatic _ _ _ => isStatic

/-- Both are signatures of one method. -/
def Overloads : Member → Member → Prop
  | .method name isStatic _ _ _, .method name' isStatic' _ _ _ =>
    name = name' ∧ isStatic = isStatic'
  | .method _ _ _ _ _, .field _ _ _ => False
  | .field _ _ _, _ => False

instance : (x y : Member) → Decidable (x.Overloads y)
  | .method _ _ _ _ _, .method _ _ _ _ _ => inferInstanceAs (Decidable (_ ∧ _))
  | .method _ _ _ _ _, .field _ _ _ => inferInstanceAs (Decidable False)
  | .field _ _ _, _ => inferInstanceAs (Decidable False)

end Member

namespace TargetId

/-- In TypeScript static members are found on the class and all others on its instances; in Python
the body of a class is one namespace. -/
def SameNamespace : TargetId → Member → Member → Prop
  | .typescript, x, y => x.isStatic = y.isStatic
  | .python, _, _ => True

instance : (id : TargetId) → (x y : Member) → Decidable (id.SameNamespace x y)
  | .typescript, x, y => inferInstanceAs (Decidable (x.isStatic = y.isStatic))
  | .python, _, _ => inferInstanceAs (Decidable True)

theorem sameNamespace_of_isStatic_eq {id : TargetId} {x y : Member} (h : x.isStatic = y.isStatic) :
    id.SameNamespace x y := by
  cases id with
  | typescript => exact h
  | python => trivial

/-- The identifier of a member in the text. -/
def memberIdentifier (id : TargetId) (x : Member) : String :=
  (Target.ofId id).identifiers.member x.name

/-- Only signatures of one method share an identifier in a namespace. -/
def NoShadowing (id : TargetId) (members : List Member) : Prop :=
  members.Pairwise fun x y =>
    id.SameNamespace x y → id.memberIdentifier x = id.memberIdentifier y → x.Overloads y

instance (id : TargetId) (members : List Member) : Decidable (id.NoShadowing members) :=
  inferInstanceAs (Decidable (members.Pairwise _))

end TargetId

/-- A method of that name is written: it has a signature. -/
def MethodTable.Writes (table : MethodTable) (name : String) : Prop :=
  ∃ entry ∈ table.entries, entry.1 = name ∧ entry.2 ≠ []

instance (table : MethodTable) (name : String) : Decidable (table.Writes name) :=
  inferInstanceAs (Decidable (∃ entry ∈ table.entries, entry.1 = name ∧ entry.2 ≠ []))

/-- No property has the name of a method; and in Python no static method has the identifier of a
property or a method. -/
structure Class.Unshadowed (id : TargetId) (c : Class) : Prop where
  properties : ∀ name ∈ c.properties.keys, ¬ c.methods.Writes name
  staticMethods : id = .python → ∀ name other, c.staticMethods.Writes name →
    other ∈ c.properties.keys ∨ c.methods.Writes other →
    (Target.ofId id).identifiers.member name ≠ (Target.ofId id).identifiers.member other

theorem MethodTable.Writes.mem_keys {table : MethodTable} {name : String} (h : table.Writes name) :
    name ∈ table.keys := by
  obtain ⟨entry, he, rfl, -⟩ := h
  exact List.mem_map_of_mem he

/-! ## The members of a class -/

namespace Member

variable {s : Spec} {m : Mapping} {isStatic : Bool} {table : MethodTable}

theorem exists_of_mem_ofMethods {x : Member} (h : x ∈ ofMethods s m isStatic table) :
    table.Writes x.name ∧ ∃ name isOverload parameters result,
      x = .method name isStatic isOverload parameters result := by
  obtain ⟨entry, he, hx⟩ := List.mem_flatMap.1 h
  obtain ⟨sig, hsig, rfl⟩ := List.mem_map.1 hx
  exact ⟨⟨entry, he, rfl, List.ne_nil_of_mem hsig⟩, _, _, _, _, rfl⟩

theorem exists_mem_of_writes {name : String} (h : table.Writes name) :
    ∃ isOverload parameters result,
      .method name isStatic isOverload parameters result ∈ ofMethods s m isStatic table := by
  obtain ⟨entry, he, rfl, hne⟩ := h
  obtain ⟨sig, sigs, hsigs⟩ := List.exists_cons_of_ne_nil hne
  have hmem := List.mem_map_of_mem
    (f := fun sig => Member.method entry.1 isStatic (1 < entry.2.length)
      (TypeExpr.shapeArguments s m sig.arguments) (sig.result.shape s m))
    (hsigs ▸ List.mem_cons_self : sig ∈ entry.2)
  exact ⟨_, _, _, List.mem_flatMap.2 ⟨entry, he, hmem⟩⟩

/-- What holds of all methods of a table depends on their names only. -/
theorem forall_mem_ofMethods {p : Member → Prop} {q : String → Prop}
    (h : ∀ name isOverload parameters result,
      p (.method name isStatic isOverload parameters result) ↔ q name) :
    (∀ x ∈ ofMethods s m isStatic table, p x) ↔ ∀ name, table.Writes name → q name := by
  constructor
  · intro hall name hname
    obtain ⟨_, _, _, hmem⟩ := exists_mem_of_writes hname
    exact (h _ _ _ _).1 (hall _ hmem)
  · intro hall x hx
    obtain ⟨hwrites, _, _, _, _, rfl⟩ := exists_of_mem_ofMethods hx
    exact (h _ _ _ _).2 (hall _ hwrites)

end Member

namespace TargetId

variable {id : TargetId} {s : Spec} {m : Mapping} {c : Class}

theorem noShadowing_ofMethods {isStatic : Bool} {table : MethodTable}
    (h : Set.InjOn (Target.ofId id).identifiers.member {n | n ∈ table.keys}) :
    id.NoShadowing (Member.ofMethods s m isStatic table) := by
  refine List.pairwise_of_forall_mem_list fun x hx y hy _ heq => ?_
  obtain ⟨hxwrites, _, _, _, _, rfl⟩ := Member.exists_of_mem_ofMethods hx
  obtain ⟨hywrites, _, _, _, _, rfl⟩ := Member.exists_of_mem_ofMethods hy
  exact ⟨h hxwrites.mem_keys hywrites.mem_keys heq, rfl⟩

theorem noShadowing_properties
    (h : Set.InjOn (Target.ofId id).identifiers.member {n | n ∈ c.properties.keys}) :
    id.NoShadowing (c.properties.entries.map (Member.ofProperty s m)) := by
  refine List.pairwise_map.2 ((List.pairwise_map.1 c.properties.nodup).imp_of_mem ?_)
  intro x y hx hy hne _ heq
  exact absurd (h (List.mem_map_of_mem hx) (List.mem_map_of_mem hy) heq) hne

/-- Static methods stand beside what an instance has, except in Python. -/
theorem forall_static_iff {others : List Member} (h : ∀ y ∈ others, y.isStatic = false) :
    (∀ x ∈ Member.ofMethods s m true c.staticMethods, ∀ y ∈ others, id.SameNamespace x y →
        id.memberIdentifier x = id.memberIdentifier y → x.Overloads y) ↔
      ∀ name, c.staticMethods.Writes name → ∀ y ∈ others, id = .python →
        (Target.ofId id).identifiers.member name ≠ id.memberIdentifier y := by
  refine Member.forall_mem_ofMethods fun name isOverload parameters result => ?_
  refine forall₂_congr fun y hy => ?_
  have hnonstatic := h y hy
  cases id with
  | typescript =>
      refine iff_of_true (fun hsame _ => ?_) nofun
      exact absurd (hsame.symm.trans rfl : y.isStatic = true) (by simp [hnonstatic])
  | python =>
      have hnot : ¬ Member.Overloads (.method name true isOverload parameters result) y := by
        cases y with
        | field _ _ _ => exact nofun
        | method _ isStatic' _ _ _ =>
            rintro ⟨-, rfl⟩
            cases hnonstatic
      exact ⟨fun hshadow _ heq => hnot (hshadow trivial heq),
        fun hne _ heq => absurd heq (hne rfl)⟩

/-- Validation tells a property from a method by their names. -/
theorem forall_properties_iff
    (h : Set.InjOn (Target.ofId id).identifiers.member
      {n | n ∈ c.properties.keys ∨ n ∈ c.methods.keys}) :
    (∀ x ∈ c.properties.entries.map (Member.ofProperty s m),
      ∀ y ∈ Member.ofMethods s m false c.methods, id.SameNamespace x y →
        id.memberIdentifier x = id.memberIdentifier y → x.Overloads y) ↔
      ∀ name ∈ c.properties.keys, ¬ c.methods.Writes name := by
  rw [OrderedMap.keys, List.forall_mem_map, List.forall_mem_map]
  refine forall₂_congr fun entry he => ?_
  constructor
  · intro hall hwrites
    obtain ⟨_, _, _, hmem⟩ := Member.exists_mem_of_writes hwrites
    exact hall _ hmem (sameNamespace_of_isStatic_eq rfl) rfl
  · intro hnot y hy _ heq
    obtain ⟨hwrites, _, _, _, _, rfl⟩ := Member.exists_of_mem_ofMethods hy
    have hname := h (.inl (List.mem_map_of_mem he)) (.inr hwrites.mem_keys) heq
    exact absurd (hname ▸ hwrites) hnot

theorem noShadowing_class_iff
    (hmembers : Set.InjOn (Target.ofId id).identifiers.member
      {n | n ∈ c.properties.keys ∨ n ∈ c.methods.keys})
    (hstatic : Set.InjOn (Target.ofId id).identifiers.member {n | n ∈ c.staticMethods.keys}) :
    id.NoShadowing (Member.ofMethods s m true c.staticMethods ++
      c.properties.entries.map (Member.ofProperty s m) ++ Member.ofMethods s m false c.methods) ↔
      c.Unshadowed id := by
  have hfields : ∀ y ∈ c.properties.entries.map (Member.ofProperty s m), y.isStatic = false :=
    List.forall_mem_map.2 fun _ _ => rfl
  have hmethods : ∀ y ∈ Member.ofMethods s m false c.methods, y.isStatic = false := by
    intro y hy
    obtain ⟨-, _, _, _, _, rfl⟩ := Member.exists_of_mem_ofMethods hy
    rfl
  rw [NoShadowing, List.pairwise_append, List.pairwise_append]
  simp only [List.forall_mem_append]
  rw [forall_static_iff hfields, forall_static_iff hmethods, forall_properties_iff hmembers]
  constructor
  · rintro ⟨⟨-, -, hstaticFields⟩, -, hstaticMethods, hproperties⟩
    refine ⟨hproperties, fun hid name other hname hother => ?_⟩
    rcases hother with hother | hother
    · obtain ⟨entry, he, rfl⟩ := List.mem_map.1 hother
      exact hstaticFields name hname _ (List.mem_map_of_mem he) hid
    · obtain ⟨_, _, _, hmem⟩ := Member.exists_mem_of_writes hother
      exact hstaticMethods name hname _ hmem hid
  · intro h
    refine ⟨⟨noShadowing_ofMethods hstatic, ?_, fun name hname y hy hid => ?_⟩,
      noShadowing_ofMethods (hmembers.mono fun _ => .inr), fun name hname y hy hid => ?_,
      h.properties⟩
    · exact noShadowing_properties (hmembers.mono fun _ => .inl)
    · obtain ⟨entry, he, rfl⟩ := List.mem_map.1 hy
      exact h.staticMethods hid name entry.1 hname (.inl (List.mem_map_of_mem he))
    · obtain ⟨hwrites, _, _, _, _, rfl⟩ := Member.exists_of_mem_ofMethods hy
      exact h.staticMethods hid name _ hname (.inr hwrites)

end TargetId

namespace TargetReport

/-- The classes that are written for a spec without violations are its classes, and members of one
hide one another exactly if it is shadowed. -/
theorem noShadowing_iff (id : TargetId) (s : Spec) (bridgeModule : Option String) (shelf : Shelf)
    (h : s.validate (Target.ofId id).identifiers = []) :
    (∃ u, (generate (.ofId id) s bridgeModule Sink.memory shelf).state.get? id.declarationUnit =
      some u ∧ u.lines = (id.statements s).flatMap id.write) ∧
    (∀ name members, .objectClass name members ∈ id.statements s →
      ∃ c, (name, c) ∈ s.classes.entries ∧ (id.NoShadowing members ↔ c.Unshadowed id)) ∧
    ∀ entry ∈ s.classes.entries, ∃ members, .objectClass entry.1 members ∈ id.statements s ∧
      (id.NoShadowing members ↔ entry.2.Unshadowed id) := by
  have hsound := (s.validate_eq_nil_iff _).1 h
  have hclass : ∀ entry ∈ s.classes.entries, id.NoShadowing
      (Member.ofMethods s (Target.ofId id).mapping true entry.2.staticMethods ++
        entry.2.properties.entries.map (Member.ofProperty s (Target.ofId id).mapping) ++
        Member.ofMethods s (Target.ofId id).mapping false entry.2.methods) ↔
        entry.2.Unshadowed id := by
    intro entry he
    have hc : entry.2 ∈ s.classes.values := List.mem_map_of_mem he
    exact TargetId.noShadowing_class_iff (hsound.membersApart _ hc) (hsound.staticMethodsApart _ hc)
  refine ⟨declarationUnit_lines id s bridgeModule shelf h, fun name members hmem => ?_,
    fun entry he => ⟨_, ?_, hclass entry he⟩⟩
  · obtain ⟨entry, he, heq⟩ := Statement.objectClass_mem_statements_iff.1 hmem
    cases heq
    exact ⟨entry.2, he, hclass entry he⟩
  · exact Statement.objectClass_mem_statements_iff.2 ⟨entry, he, rfl⟩

/-- A class with a static method that has the name of a method. -/
def storeSpec : Spec where
  classes := .ofList [("Store", {
    staticMethods := .ofList [("open", [{ result := .named "Store" }])]
    properties := .ofList [("is_closed", .named "bool")]
    methods := .ofList [
      ("open", [{ result := .named "void" },
        { arguments := [("path", .named "std::string")], result := .named "void" }]),
      ("close", [{ result := .named "void" }])] })]

theorem noShadowing_storeSpec :
    (∀ id, storeSpec.validate (Target.ofId id).identifiers = []) ∧
    ∀ id : TargetId, ∃ members, .objectClass "Store" members ∈ id.statements storeSpec ∧
      (id.NoShadowing members ↔ id = .typescript) := by
  have h : ∀ id, storeSpec.validate (Target.ofId id).identifiers = [] := by
    intro id
    cases id <;> decide +kernel
  refine ⟨h, fun id => ?_⟩
  obtain ⟨-, -, hclasses⟩ := noShadowing_iff id storeSpec none ∅ (h id)
  obtain ⟨members, hmem, hiff⟩ := hclasses _ List.mem_cons_self
  refine ⟨members, hmem, hiff.trans ?_⟩
  cases id with
  | typescript => exact iff_of_true ⟨by decide +kernel, nofun⟩ rfl
  | python =>
      refine iff_of_false (fun hclass => ?_) nofun
      exact hclass.staticMethods rfl "open" "open" (by decide +kernel)
        (.inr (by decide +kernel)) rfl

/-- A class with a property that has the name of a method. -/
def overlapClass : Class where
  properties := .ofList [("size", .named "int")]
  methods := .ofList [("size", [{ result := .named "int" }])]

def overlapSpec : Spec where
  classes := .ofList [("Store", overlapClass)]

theorem shadowing_overlapSpec :
    (∀ id, overlapSpec.validate (Target.ofId id).identifiers = []) ∧
    (∃ members, .objectClass "Store" members ∈ TypeScript.statements overlapSpec ∧
      ¬ TargetId.typescript.NoShadowing members ∧
      TypeScript.write (.objectClass "Store" members) =
        ["export class Store \x7b", "  size: number;", "  size(): number;", "\x7d"]) ∧
    ∃ members, .objectClass "Store" members ∈ Python.statements overlapSpec ∧
      ¬ TargetId.python.NoShadowing members ∧
      Python.write (.objectClass "Store" members) =
        ["class Store:", "    size: int", "    def size(self) -> int: ...", ""] := by
  have hmem (id : TargetId) :
      Statement.ofClass overlapSpec (Target.ofId id).mapping ("Store", overlapClass) ∈
        id.statements overlapSpec :=
    Statement.objectClass_mem_statements_iff.2 ⟨_, List.mem_cons_self, rfl⟩
  refine ⟨fun id => by cases id <;> decide +kernel, ⟨_, hmem .typescript, ?_, ?_⟩,
    ⟨_, hmem .python, ?_, ?_⟩⟩
  · decide +kernel
  · decide +kernel
  · decide +kernel
  · decide +kernel

end TargetReport

end Bindery
