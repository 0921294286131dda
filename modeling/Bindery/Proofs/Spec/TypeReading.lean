import Bindery.Proofs.Document.Reading
import Bindery.Proofs.Json.Spelling
import Bindery.Proofs.Spec.PlainNames
import Bindery.Spec.Reading

/-!
# Types read back

`TypeExpr.read_arguments`: the types that a text spells are read from it, unless it opens more
containers than a document may.
-/

namespace Bindery.TypeExpr

open Json

theorem spelt_toJson (t : TypeExpr) : t.toJson.Spelt := by
  induction t with
  | name path isConst indirection =>
      rw [toJson]
      refine spelt_object ?_
      simp only [List.forall_mem_cons, List.not_mem_nil, IsEmpty.forall_iff, implies_true, and_true]
      exact ⟨spelt_string _, spelt_strings path, spelt_bool _, spelt_bool _, spelt_bool _,
        spelt_bool _⟩
  | template path arguments isConst ih =>
      have harguments : (Json.list (listToJson arguments)).Spelt := by
        rw [listToJson_eq_map]
        exact spelt_list (List.forall_mem_map.2 ih)
      rw [toJson]
      refine spelt_object ?_
      simp only [List.forall_mem_cons, List.not_mem_nil, IsEmpty.forall_iff, implies_true, and_true]
      exact ⟨spelt_string _, spelt_strings path, harguments, spelt_bool _⟩
  | function arguments result isConst isNoExcept ihargs ihresult =>
      have harguments : (Json.list (argumentsToJson arguments)).Spelt := by
        rw [argumentsToJson_eq_map]
        refine spelt_list (List.forall_mem_map.2 fun a ha => spelt_object ?_)
        simp only [List.forall_mem_cons, List.not_mem_nil, IsEmpty.forall_iff, implies_true,
          and_true]
        exact ⟨spelt_string _, ihargs a ha⟩
      rw [toJson]
      refine spelt_object ?_
      simp only [List.forall_mem_cons, List.not_mem_nil, IsEmpty.forall_iff, implies_true, and_true]
      exact ⟨spelt_string _, harguments, ihresult, spelt_bool _, spelt_bool _⟩

theorem spelt_listToJson (ts : List TypeExpr) : (Json.list (listToJson ts)).Spelt := by
  rw [listToJson_eq_map]
  exact spelt_list (List.forall_mem_map.2 fun t _ => spelt_toJson t)

/-! ## The nodes of types -/

theorem node_strings (names : List String) :
    (strings names).node = .list (names.map .string) := by
  simp [strings, node, itemNodes_eq_map]

theorem node_listToJson (ts : List TypeExpr) :
    (Json.list (listToJson ts)).node = .list (ts.map fun t => t.toJson.node) := by
  simp [node, itemNodes_eq_map, listToJson_eq_map]

theorem node_argumentsToJson (arguments : List (String × TypeExpr)) :
    (Json.list (argumentsToJson arguments)).node = .list (arguments.map fun a =>
      .table [(some "name", .string a.1), (some "type", a.2.toJson.node)]) := by
  simp [node, itemNodes_eq_map, memberNodes, argumentsToJson_eq_map]

variable {type : Reading → Node → Except Fault TypeExpr} {r : Reading}

theorem list_strings (names : List String) :
    r.list Reading.string (strings names).node = .ok names := by
  rw [node_strings]
  exact Reading.list_map fun name _ => rfl

theorem read_nameSchema (path : List String) (isConst : Bool) (indirection : Indirection) :
    nameSchema.read {} r (.table [
      (some "names", (strings path).node),
      (some "isConst", .bool isConst),
      (some "isPointer", .bool indirection.pointer),
      (some "isReference", .bool indirection.reference),
      (some "isRvalueReference", .bool indirection.rvalueReference)]) =
      .ok ⟨path, isConst, indirection⟩ := by
  simp [Schema.read, Schema.readEntries, Schema.named?, Schema.missing?, nameSchema,
    Schema.Field.must, Schema.Field.may, Reading.bool, list_strings]

theorem read_templateSchema {arguments : List TypeExpr} (path : List String) (isConst : Bool)
    (h : ∀ a ∈ arguments, type r.enter.enter a.toJson.node = .ok a) :
    (templateSchema type).read {} r (.table [
      (some "names", (strings path).node),
      (some "templateArguments", (Json.list (listToJson arguments)).node),
      (some "isConst", .bool isConst)]) =
      .ok ⟨path, arguments, isConst⟩ := by
  have harguments := Reading.list_map (r := r.enter) h
  rw [← node_listToJson] at harguments
  simp [Schema.read, Schema.readEntries, Schema.named?, Schema.missing?, templateSchema,
    Schema.Field.must, Schema.Field.may, Reading.bool, list_strings, harguments]

theorem read_argumentSchema {t : TypeExpr} (name : String)
    (h : type r.enter t.toJson.node = .ok t) :
    (argumentSchema type).read default r (.table [
      (some "name", .string name),
      (some "type", t.toJson.node)]) = .ok (name, t) := by
  simp [Schema.read, Schema.readEntries, Schema.named?, Schema.missing?, argumentSchema,
    Schema.Field.must, Reading.string, h]

theorem read_signatureSchema {arguments : List (String × TypeExpr)} {result : TypeExpr}
    (isConst isNoExcept : Bool)
    (harguments : ∀ a ∈ arguments, type r.enter.enter.enter a.2.toJson.node = .ok a.2)
    (hresult : type r.enter result.toJson.node = .ok result) :
    (signatureSchema type).read default r (.table [
      (some "arguments", (Json.list (argumentsToJson arguments)).node),
      (some "return", result.toJson.node),
      (some "isConst", .bool isConst),
      (some "isNoExcept", .bool isNoExcept)]) =
      .ok ⟨arguments, result, isConst, isNoExcept⟩ := by
  have hlist := Reading.list_map (r := r.enter) fun a ha =>
    read_argumentSchema a.1 (harguments a ha)
  rw [← node_argumentsToJson] at hlist
  simp [Schema.read, Schema.readEntries, Schema.named?, Schema.missing?, signatureSchema,
    Schema.Field.must, Schema.Field.may, Reading.bool, hlist, hresult]

/-! ## Types -/

theorem node_toJson_name (path : List String) (isConst : Bool) (indirection : Indirection) :
    (name path isConst indirection).toJson.node = .table [
      (some "kind", .string "qualified-name"),
      (some "names", (strings path).node),
      (some "isConst", .bool isConst),
      (some "isPointer", .bool indirection.pointer),
      (some "isReference", .bool indirection.reference),
      (some "isRvalueReference", .bool indirection.rvalueReference)] := rfl

theorem node_toJson_template (path : List String) (arguments : List TypeExpr) (isConst : Bool) :
    (template path arguments isConst).toJson.node = .table [
      (some "kind", .string "template-instance"),
      (some "names", (strings path).node),
      (some "templateArguments", (Json.list (listToJson arguments)).node),
      (some "isConst", .bool isConst)] := by
  simp only [toJson, node, memberNodes]

theorem node_toJson_function (arguments : List (String × TypeExpr)) (result : TypeExpr)
    (isConst isNoExcept : Bool) :
    (function arguments result isConst isNoExcept).toJson.node = .table [
      (some "kind", .string "function"),
      (some "arguments", (Json.list (argumentsToJson arguments)).node),
      (some "return", result.toJson.node),
      (some "isConst", .bool isConst),
      (some "isNoExcept", .bool isNoExcept)] := by
  simp only [toJson, node, memberNodes]

theorem height_lt_listToJson {a : TypeExpr} {ts : List TypeExpr} (h : a ∈ ts) :
    a.toJson.node.height < (Json.list (listToJson ts)).node.height := by
  rw [node_listToJson, Node.height]
  exact Nat.lt_succ_of_le (Node.height_le_itemsHeight (List.mem_map_of_mem h))

theorem height_lt_argumentsToJson {a : String × TypeExpr} {arguments : List (String × TypeExpr)}
    (h : a ∈ arguments) :
    a.2.toJson.node.height < (Json.list (argumentsToJson arguments)).node.height := by
  rw [node_argumentsToJson, Node.height]
  have hle := Node.height_le_itemsHeight (List.mem_map_of_mem (f := fun a : String × TypeExpr =>
    Node.table [(some "name", .string a.1), (some "type", a.2.toJson.node)]) h)
  simp only [Node.height, Node.entriesHeight] at hle
  omega

/-- Every type is read back from what its text says. -/
theorem readWithin_toJson {t : TypeExpr} {n : Nat} (hheight : t.toJson.node.height < n)
    (hroom : r.HasRoom t.toJson.node) : readWithin n r t.toJson.node = .ok t := by
  obtain ⟨n, rfl⟩ := Nat.exists_eq_add_one_of_ne_zero (Nat.ne_zero_of_lt hheight)
  -- Below the outermost table all is held, where the room no longer counts.
  induction t generalizing n r with
  | name path isConst indirection =>
      have hreadable := (spelt_toJson (.name path isConst indirection)).readable
      rw [node_toJson_name] at *
      rw [readWithin, Reading.tagged_table _ _ rfl (by simp) hreadable hroom]
      simp [readKind, read_nameSchema, Except.map]
  | template path arguments isConst ih =>
      have hreadable := (spelt_toJson (.template path arguments isConst)).readable
      rw [node_toJson_template] at *
      have harguments : ∀ a ∈ arguments,
          readWithin n r.afterHold.enter.enter a.toJson.node = .ok a := by
        intro a ha
        have hlt := height_lt_listToJson ha
        simp only [Node.height, Node.entriesHeight] at hheight
        obtain ⟨n, rfl⟩ := Nat.exists_eq_add_one_of_ne_zero (n := n) (by omega)
        exact ih a ha (.inl rfl) n (by omega)
      rw [readWithin, Reading.tagged_table _ _ rfl (by simp) hreadable hroom]
      simp [readKind, read_templateSchema path isConst harguments, Except.map]
  | function arguments result isConst isNoExcept ihargs ihresult =>
      have hreadable := (spelt_toJson (.function arguments result isConst isNoExcept)).readable
      rw [node_toJson_function] at *
      simp only [Node.height, Node.entriesHeight] at hheight
      obtain ⟨n, rfl⟩ := Nat.exists_eq_add_one_of_ne_zero (n := n) (by omega)
      have harguments : ∀ a ∈ arguments,
          readWithin (n + 1) r.afterHold.enter.enter.enter a.2.toJson.node = .ok a.2 := by
        intro a ha
        have hlt := height_lt_argumentsToJson ha
        exact ihargs a ha (.inl rfl) n (by omega)
      have hresult : readWithin (n + 1) r.afterHold.enter result.toJson.node = .ok result :=
        ihresult (.inl rfl) n (by omega)
      rw [readWithin, Reading.tagged_table _ _ rfl (by simp) hreadable hroom]
      simp [readKind, read_signatureSchema isConst isNoExcept harguments hresult, Except.map,
        Signature.type]

theorem read_toJson {t : TypeExpr} (hroom : r.HasRoom t.toJson.node) :
    read r t.toJson.node = .ok t :=
  readWithin_toJson (Nat.lt_succ_self _) hroom

/-- The types that a document holds, if it opens no more containers than it may. -/
theorem read_arguments {ts : List TypeExpr} (hroom : r.HasRoom (Json.list (listToJson ts)).node) :
    r.list read (Json.list (listToJson ts)).node = .ok ts := by
  rw [node_listToJson] at *
  exact Reading.list_map fun t ht => read_toJson (hroom.item (List.mem_map_of_mem ht))

end Bindery.TypeExpr
