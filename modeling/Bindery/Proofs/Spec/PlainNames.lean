import Bindery.Proofs.Naming
import Bindery.Proofs.Spec.TypeExpr
import Bindery.Proofs.Validation.Soundness
import Bindery.Resolution.Basic

/-!
# Specs with plain names

What a placeholder shows of a type is made of its names and of JSON around them, so plain names
leave no slash in it.
-/

namespace Bindery

open Naming

namespace TypeExpr

mutual
/-- Every name in a type, at any depth: the parts of paths, and the arguments of functions. -/
def names : TypeExpr → List String
  | .name path _ _ => path
  | .template path arguments _ => path ++ namesAll arguments
  | .function arguments result _ _ => namesArguments arguments ++ result.names

def namesAll : List TypeExpr → List String
  | [] => []
  | t :: ts => t.names ++ namesAll ts

def namesArguments : List (String × TypeExpr) → List String
  | [] => []
  | (argument, t) :: rest => argument :: t.names ++ namesArguments rest
end

def PlainlyNamed (t : TypeExpr) : Prop :=
  ∀ name ∈ t.names, Plain name

instance (t : TypeExpr) : Decidable t.PlainlyNamed :=
  inferInstanceAs (Decidable (∀ name ∈ t.names, Plain name))

theorem namesAll_eq_flatMap (ts : List TypeExpr) : namesAll ts = ts.flatMap names := by
  induction ts with
  | nil => rfl
  | cons t ts ih => simp [namesAll, ih]

theorem namesArguments_eq_flatMap (arguments : List (String × TypeExpr)) :
    namesArguments arguments = arguments.flatMap fun a => a.1 :: a.2.names := by
  induction arguments with
  | nil => rfl
  | cons a arguments ih => simp [namesArguments, ih]

theorem plainlyNamed_name {path isConst indirection} :
    PlainlyNamed (.name path isConst indirection) ↔ ∀ part ∈ path, Plain part :=
  Iff.rfl

theorem plainlyNamed_template {path arguments isConst} :
    PlainlyNamed (.template path arguments isConst) ↔
      (∀ part ∈ path, Plain part) ∧ ∀ a ∈ arguments, a.PlainlyNamed := by
  simp only [PlainlyNamed, names, namesAll_eq_flatMap, List.forall_mem_append,
    List.forall_mem_flatMap]

theorem plainlyNamed_function {arguments result isConst isNoExcept} :
    PlainlyNamed (.function arguments result isConst isNoExcept) ↔
      (∀ a ∈ arguments, Plain a.1 ∧ a.2.PlainlyNamed) ∧ result.PlainlyNamed := by
  simp only [PlainlyNamed, names, namesArguments_eq_flatMap, List.forall_mem_append,
    List.forall_mem_flatMap, List.forall_mem_cons]

end TypeExpr

/-- Every name that a spec gives to an entity, a member or an argument is plain, and so are the
names in its types. Entities may have scopes. -/
structure Spec.PlainlyNamed (s : Spec) : Prop where
  entities : ∀ name ∈ s.declaredNames, PlainPath name
  fields : ∀ r ∈ s.records.values, ∀ name ∈ r.fields.keys, Plain name
  properties : ∀ c ∈ s.classes.values, ∀ name ∈ c.properties.keys, Plain name
  methods : ∀ c ∈ s.classes.values, ∀ name ∈ c.methods.keys, Plain name
  staticMethods : ∀ c ∈ s.classes.values, ∀ name ∈ c.staticMethods.keys, Plain name
  interfaceMethods : ∀ i ∈ s.interfaces.values, ∀ name ∈ i.methods.keys, Plain name
  arguments : ∀ sig, s.HasSignature sig → ∀ name ∈ sig.arguments.map Prod.fst, Plain name
  types : ∀ t, s.HasType t → t.PlainlyNamed

/-! ## Texts without a slash -/

theorem Naming.slash_not_mem {cs : List Char} (h : ∀ c ∈ cs, isPlainChar c = true) : '/' ∉ cs :=
  fun hmem => absurd (h '/' hmem) (by decide)

namespace Json

theorem slash_not_mem_quoted {cs : List Char} (h : ∀ c ∈ cs, isPlainChar c = true) :
    '/' ∉ quoted cs := by
  have hchars : cs.flatMap quotedChar = cs := by
    rw [List.flatMap_congr (g := fun c => [c])]
    · exact List.flatMap_singleton' cs
    · intro c hc
      exact isPlainChar_cases (p := fun c => quotedChar c = [c]) (by decide +kernel) (h c hc)
  rw [quoted, hchars]
  have hslash := slash_not_mem h
  simpa using hslash

theorem slash_not_mem_compactItems {items : List Json}
    (h : ∀ item ∈ items, '/' ∉ item.compactText) : '/' ∉ compactItems items := by
  induction items with
  | nil => simp [compactItems]
  | cons item items ih =>
      obtain ⟨hitem, hitems⟩ := List.forall_mem_cons.1 h
      cases items with
      | nil => simpa [compactItems] using hitem
      | cons next items => simpa [compactItems, hitem] using ih hitems

theorem slash_not_mem_compactMembers {members : List (String × Json)}
    (h : ∀ m ∈ members, '/' ∉ quoted m.1.toList ∧ '/' ∉ m.2.compactText) :
    '/' ∉ compactMembers members := by
  induction members with
  | nil => simp [compactMembers]
  | cons m members ih =>
      obtain ⟨⟨hname, hvalue⟩, hmembers⟩ := List.forall_mem_cons.1 h
      cases members with
      | nil => simp [compactMembers, hname, hvalue]
      | cons next members => simpa [compactMembers, hname, hvalue] using ih hmembers

theorem slash_not_mem_object {members : List (String × Json)}
    (h : ∀ m ∈ members, '/' ∉ quoted m.1.toList ∧ '/' ∉ m.2.compactText) :
    '/' ∉ (object members).compactText := by
  simpa [compactText] using slash_not_mem_compactMembers h

theorem slash_not_mem_list {items : List Json} (h : ∀ item ∈ items, '/' ∉ item.compactText) :
    '/' ∉ (list items).compactText := by
  simpa [compactText] using slash_not_mem_compactItems h

theorem slash_not_mem_bool (b : Bool) : '/' ∉ (bool b).compactText := by
  cases b <;> decide

theorem slash_not_mem_strings {names : List String} (h : ∀ name ∈ names, Plain name) :
    '/' ∉ (strings names).compactText := by
  refine slash_not_mem_list (List.forall_mem_map.2 fun name hname => ?_)
  rw [compactText]
  exact slash_not_mem_quoted (h name hname).chars

end Json

namespace TypeExpr

theorem listToJson_eq_map (ts : List TypeExpr) : listToJson ts = ts.map toJson := by
  induction ts with
  | nil => rfl
  | cons t ts ih => simp [listToJson, ih]

theorem argumentsToJson_eq_map (arguments : List (String × TypeExpr)) :
    argumentsToJson arguments =
      arguments.map fun a => Json.object [("name", .string a.1), ("type", a.2.toJson)] := by
  induction arguments with
  | nil => rfl
  | cons a arguments ih => simp [argumentsToJson, ih]

theorem slash_not_mem_toJson {t : TypeExpr} (h : t.PlainlyNamed) : '/' ∉ t.toJson.compactText := by
  induction t with
  | name path isConst indirection =>
      have hpath := Json.slash_not_mem_strings (plainlyNamed_name.1 h)
      rw [toJson]
      refine Json.slash_not_mem_object ?_
      simp only [List.forall_mem_cons, List.not_mem_nil, IsEmpty.forall_iff, implies_true, and_true]
      exact ⟨by decide, ⟨by decide, hpath⟩, ⟨by decide, Json.slash_not_mem_bool _⟩,
        ⟨by decide, Json.slash_not_mem_bool _⟩, ⟨by decide, Json.slash_not_mem_bool _⟩,
        by decide, Json.slash_not_mem_bool _⟩
  | template path arguments isConst ih =>
      obtain ⟨hparts, harguments⟩ := plainlyNamed_template.1 h
      have hpath := Json.slash_not_mem_strings hparts
      have hargs : '/' ∉ (Json.list (listToJson arguments)).compactText := by
        rw [listToJson_eq_map]
        exact Json.slash_not_mem_list (List.forall_mem_map.2 fun a ha =>
          ih a ha (harguments a ha))
      rw [toJson]
      refine Json.slash_not_mem_object ?_
      simp only [List.forall_mem_cons, List.not_mem_nil, IsEmpty.forall_iff, implies_true, and_true]
      exact ⟨by decide, ⟨by decide, hpath⟩, ⟨by decide, hargs⟩, by decide,
        Json.slash_not_mem_bool _⟩
  | function arguments result isConst isNoExcept ihargs ihresult =>
      obtain ⟨harguments, hresult⟩ := plainlyNamed_function.1 h
      have hargs : '/' ∉ (Json.list (argumentsToJson arguments)).compactText := by
        rw [argumentsToJson_eq_map]
        refine Json.slash_not_mem_list (List.forall_mem_map.2 fun a ha => ?_)
        have hname : '/' ∉ (Json.string a.1).compactText := by
          rw [Json.compactText]
          exact Json.slash_not_mem_quoted (harguments a ha).1.chars
        refine Json.slash_not_mem_object ?_
        simp only [List.forall_mem_cons, List.not_mem_nil, IsEmpty.forall_iff, implies_true,
          and_true]
        exact ⟨⟨by decide, hname⟩, by decide, ihargs a ha (harguments a ha).2⟩
      rw [toJson]
      refine Json.slash_not_mem_object ?_
      simp only [List.forall_mem_cons, List.not_mem_nil, IsEmpty.forall_iff, implies_true, and_true]
      exact ⟨by decide, ⟨by decide, hargs⟩, ⟨by decide, ihresult hresult⟩,
        ⟨by decide, Json.slash_not_mem_bool _⟩, by decide, Json.slash_not_mem_bool _⟩

theorem slash_not_mem_joinPath {path : List String} (h : ∀ part ∈ path, Plain part) :
    '/' ∉ (joinPath path).toList := by
  intro hmem
  rcases Text.mem_joined hmem with hmem | ⟨part, hpart, hmem⟩
  · exact absurd hmem (by decide)
  · exact slash_not_mem (h part hpart).chars hmem

theorem slash_not_mem_templateDetail {path arguments isConst}
    (h : PlainlyNamed (.template path arguments isConst)) :
    '/' ∉ (Resolver.templateDetail (joinPath path) arguments).toList := by
  obtain ⟨hparts, harguments⟩ := plainlyNamed_template.1 h
  have hpath := slash_not_mem_joinPath hparts
  have hargs : '/' ∉ (Json.list (listToJson arguments)).compactText := by
    rw [listToJson_eq_map]
    exact Json.slash_not_mem_list (List.forall_mem_map.2 fun a ha =>
      slash_not_mem_toJson (harguments a ha))
  simp [Resolver.templateDetail, Json.compact, hpath, hargs]

end TypeExpr

end Bindery
