import Bindery.Proofs.Document.Order
import Bindery.Proofs.Spec.Flags

/-!
# Specs with their members in another order

What may be rearranged in the text of a spec: the members of the spec itself, and of all that
stands for a record in it, types inside types included. Lists and maps from names keep their order.
`parse_rearranged`: the rearranged text gives the same spec.
-/

namespace Bindery

open Node Reading

namespace TypeExpr

variable (type : Node → Node → Prop)

/-! ## Types -/

def nameParts : Parts :=
  [("names", Eq), ("isConst", Eq), ("isPointer", Eq), ("isReference", Eq),
    ("isRvalueReference", Eq)]

def templateParts : Parts :=
  [("names", Eq), ("templateArguments", ListOf type), ("isConst", Eq)]

def argumentParts : Parts :=
  [("name", Eq), ("type", type)]

def signatureParts : Parts :=
  [("arguments", ListOf (RecordOf (argumentParts type))), ("return", type), ("isConst", Eq),
    ("isNoExcept", Eq)]

/-- The parts of a type of that kind. -/
def kindParts : Nat → Parts
  | 0 => nameParts
  | 1 => templateParts type
  | _ => signatureParts type

/-- A type, rearranged in so many types inside each other. -/
def RearrangedWithin : Nat → Node → Node → Prop
  | 0 => Eq
  | depth + 1 => VariantOf "kind" kinds (kindParts (RearrangedWithin depth))

/-- A type, rearranged at any depth. -/
def Rearranged (node node' : Node) : Prop := ∃ depth, RearrangedWithin depth node node'

variable {type} {read : Reading → Node → Except Fault TypeExpr}

theorem keeps_argumentParts (h : Keeps type) : ∀ part ∈ argumentParts type, Keeps part.2 := by
  simp [argumentParts, keeps_eq, h]

theorem keeps_kindParts (h : Keeps type) (kind : Nat) :
    ∀ part ∈ kindParts type kind, Keeps part.2 := by
  match kind with
  | 0 => simp [kindParts, nameParts, keeps_eq]
  | 1 => simp [kindParts, templateParts, keeps_eq, h.listOf]
  | _ + 2 =>
      have harguments := (Keeps.recordOf (keeps_argumentParts h)).listOf
      simp [kindParts, signatureParts, keeps_eq, h, harguments]

theorem keeps_rearrangedWithin (depth : Nat) : Keeps (RearrangedWithin depth) := by
  induction depth with
  | zero => exact keeps_eq
  | succ depth ih => exact .variantOf (keeps_kindParts ih)

/-! ### Readers of types -/

theorem independent_nameSchema : nameSchema.Independent := by
  simp [Schema.Independent, nameSchema, Schema.Field.must, Schema.Field.may]

theorem independent_templateSchema : (templateSchema read).Independent := by
  simp [Schema.Independent, templateSchema, Schema.Field.must, Schema.Field.may]

theorem independent_argumentSchema : (argumentSchema read).Independent := by
  simp [Schema.Independent, argumentSchema, Schema.Field.must]

theorem independent_signatureSchema : (signatureSchema read).Independent := by
  simp [Schema.Independent, signatureSchema, Schema.Field.must, Schema.Field.may]

theorem respects_nameSchema (start : NameParts) :
    Respects (RecordOf nameParts) (nameSchema.read start) := by
  refine Schema.respects_read ?_ independent_nameSchema start
  exact .cons .same (.cons .same (.cons .same (.cons .same (.cons .same .nil))))

theorem respects_templateSchema (h : Respects type read) (start : TemplateParts) :
    Respects (RecordOf (templateParts type)) ((templateSchema read).read start) := by
  refine Schema.respects_read ?_ independent_templateSchema start
  exact .cons .same (.cons (.of h.list) (.cons .same .nil))

theorem respects_argumentSchema (h : Respects type read) (start : String × TypeExpr) :
    Respects (RecordOf (argumentParts type)) ((argumentSchema read).read start) := by
  refine Schema.respects_read ?_ independent_argumentSchema start
  exact .cons .same (.cons (.of h) .nil)

theorem respects_signatureSchema (h : Respects type read) (start : Signature) :
    Respects (RecordOf (signatureParts type)) ((signatureSchema read).read start) := by
  refine Schema.respects_read ?_ independent_signatureSchema start
  have harguments := (respects_argumentSchema h default).list
  exact .cons (.of harguments) (.cons (.of h) (.cons .same (.cons .same .nil)))

theorem respects_readKind (h : Respects type read) (kind : Nat) :
    Respects (RecordOf (kindParts type kind)) (readKind read kind) := by
  match kind with
  | 0 => exact (respects_nameSchema {}).map _
  | 1 => exact (respects_templateSchema h {}).map _
  | _ + 2 => exact (respects_signatureSchema h default).map _

theorem respects_readWithin (n depth : Nat) : Respects (RearrangedWithin depth) (readWithin n) := by
  induction n generalizing depth with
  | zero => rintro r _ _ t - ⟨⟩
  | succ n ih =>
      cases depth with
      | zero => exact respects_eq _
      | succ depth =>
          exact respects_tagged (keeps_kindParts (keeps_rearrangedWithin depth))
            (respects_readKind (ih depth))

theorem respects_read : Respects Rearranged TypeExpr.read := by
  rintro r node node' t ⟨depth, hchange⟩ hread
  -- types are read with as many steps as the node is high, and that stays
  rw [TypeExpr.read, (keeps_rearrangedWithin depth).height hchange]
  exact respects_readWithin _ depth hchange hread

end TypeExpr

/-! ## Entities -/

namespace MethodTable

def overloadParts : Parts :=
  [("sig", RecordOf (TypeExpr.signatureParts TypeExpr.Rearranged))]

def Rearranged : Node → Node → Prop := MapOf (ListOf (RecordOf overloadParts))

theorem respects_overloadSchema (start : Signature) :
    Respects (RecordOf overloadParts) (overloadSchema.read start) := by
  refine Schema.respects_read ?_ (by simp [Schema.Independent, overloadSchema]) start
  exact .cons (.of (TypeExpr.respects_signatureSchema TypeExpr.respects_read default)) .nil

theorem respects_read : Respects Rearranged MethodTable.read :=
  (respects_overloadSchema default).list.mapOf

end MethodTable

namespace RecordField

def parts : Parts := [("type", TypeExpr.Rearranged), ("default", Eq)]

theorem independent : schema.Independent := by
  simp [Schema.Independent, schema, Schema.Field.must, Schema.Field.may]

theorem respects_read (start : RecordField) : Respects (RecordOf parts) (schema.read start) := by
  refine Schema.respects_read ?_ independent start
  exact .cons (.of TypeExpr.respects_read) (.cons .same .nil)

end RecordField

namespace Record

def parts : Parts := [("fields", MapOf (RecordOf RecordField.parts))]

theorem respects_read (start : Record) : Respects (RecordOf parts) (schema.read start) := by
  refine Schema.respects_read ?_ (by simp [Schema.Independent, schema]) start
  exact .cons (.of (RecordField.respects_read default).mapOf) .nil

end Record

namespace Class

def parts : Parts :=
  [("methods", MethodTable.Rearranged), ("staticMethods", MethodTable.Rearranged),
    ("properties", MapOf TypeExpr.Rearranged), ("sharedPtrWrapped", Eq)]

theorem independent : schema.Independent := by
  simp [Schema.Independent, schema, Schema.Field.may]

theorem respects_read (start : Class) : Respects (RecordOf parts) (schema.read start) := by
  refine Schema.respects_read ?_ independent start
  have hmethods := MethodTable.respects_read
  have hproperties := TypeExpr.respects_read.mapOf
  exact .cons (.of hmethods) (.cons (.of hmethods) (.cons (.of hproperties) (.cons .same .nil)))

end Class

namespace Interface

def parts : Parts := [("methods", MethodTable.Rearranged)]

theorem respects_read (start : Interface) : Respects (RecordOf parts) (schema.read start) := by
  refine Schema.respects_read ?_ (by simp [Schema.Independent, schema]) start
  exact .cons (.of MethodTable.respects_read) .nil

end Interface

namespace Enumeration

/-- The values are a list or a map, and keep their order. -/
def parts : Parts := [("isFlag", Eq), ("values", Eq)]

theorem independent : schema.Independent := by
  simp [Schema.Independent, schema, Schema.Field.must, Schema.Field.may]

theorem respects_read (start : Enumeration) : Respects (RecordOf parts) (schema.read start) :=
  Schema.respects_read (.cons .same (.cons .same .nil)) independent start

end Enumeration

/-! ## Specs -/

namespace Spec

def parts : Parts :=
  [("primitives", Eq), ("templates", Eq), ("records", MapOf (RecordOf Record.parts)),
    ("classes", MapOf (RecordOf Class.parts)), ("interfaces", MapOf (RecordOf Interface.parts)),
    ("enums", MapOf (RecordOf Enumeration.parts)), ("typeAliases", MapOf TypeExpr.Rearranged),
    ("opaqueTypes", Eq)]

/-- A spec, rearranged. -/
def Rearranged : Node → Node → Prop := RecordOf parts

theorem independent : schema.Independent := by
  simp [Schema.Independent, schema, Schema.Field.may]

theorem respects_read : Respects Rearranged Spec.read := by
  refine Schema.respects_read ?_ independent {}
  have hrecords := (Record.respects_read {}).mapOf
  have hclasses := (Class.respects_read {}).mapOf
  have hinterfaces := (Interface.respects_read {}).mapOf
  have henumerations := (Enumeration.respects_read default).mapOf
  have haliases := TypeExpr.respects_read.mapOf
  exact .cons .same (.cons .same (.cons (.of hrecords) (.cons (.of hclasses)
    (.cons (.of hinterfaces) (.cons (.of henumerations) (.cons (.of haliases)
      (.cons .same .nil)))))))

/-- In the text of a spec it does not count where the members of a record stand, nor that there are
others with plain values. -/
theorem parse_rearranged {text : String} {s : Spec} (h : parse .json text = .ok s) :
    (∃ x, Json.Written (.element x) text.toList) ∧
      ∀ x x' text', Json.Written (.element x) text.toList →
        Json.Written (.element x') text'.toList → Rearranged x.node x'.node →
        parse .json text' = .ok s := by
  obtain ⟨hwritten, hread⟩ := written_of_parse h
  refine ⟨hwritten, fun x x' text' hx hx' hrearranged => ?_⟩
  have hcomplete := Json.complete_iff.2 ⟨x', hx'⟩
  have hread' : read .json x'.node = .ok s := respects_read hrearranged (hread x hx)
  rw [parse, Document.read_eq_ok_iff]
  refine ⟨hcomplete, ?_⟩
  rw [Format.document, hx'.document]
  exact hread'

/-! ### A spec with its members in another order -/

def methodText : String :=
  "\x7b\"classes\":\x7b\"B\":\x7b\"methods\":\x7b\"f\":[\x7b\"sig\":\x7b\"return\":" ++
  "\x7b\"kind\":\"qualified-name\",\"names\":[\"T\"]\x7d,\"isConst\":true\x7d\x7d]\x7d\x7d\x7d," ++
  "\"opaqueTypes\":[\"T\"]\x7d"

/-- The same with the members in other places, and with two more. -/
def mixedText : String :=
  "\x7b\"opaqueTypes\":[\"T\"],\"note\":\"x\",\"classes\":\x7b\"B\":\x7b\"methods\":\x7b\"f\":[" ++
  "\x7b\"sig\":\x7b\"isConst\":true,\"return\":\x7b\"names\":[\"T\"],\"seen\":null," ++
  "\"kind\":\"qualified-name\"\x7d\x7d\x7d]\x7d\x7d\x7d\x7d"

def methodSpec : Spec where
  classes := .ofList [("B", { methods := .ofList [("f", [⟨[], .named "T", true, false⟩])] })]
  opaqueTypes := ["T"]

def typeNode : Node :=
  .table [(some "kind", .string "qualified-name"), (some "names", .list [.string "T"])]

def mixedTypeNode : Node :=
  .table [(some "names", .list [.string "T"]), (some "seen", .null),
    (some "kind", .string "qualified-name")]

def signatureNode : Node := .table [(some "return", typeNode), (some "isConst", .bool true)]

def mixedSignatureNode : Node :=
  .table [(some "isConst", .bool true), (some "return", mixedTypeNode)]

/-- The classes of a spec with one method of that signature. -/
def classesNode (signature : Node) : Node :=
  .table [(some "B", .table [(some "methods", .table [(some "f",
    .list [.table [(some "sig", signature)]])])])]

def methodNode : Node :=
  .table [(some "classes", classesNode signatureNode), (some "opaqueTypes", .list [.string "T"])]

def mixedNode : Node :=
  .table [(some "opaqueTypes", .list [.string "T"]), (some "note", .string "x"),
    (some "classes", classesNode mixedSignatureNode)]

theorem rearranged_typeNode : TypeExpr.Rearranged typeNode mixedTypeNode := by
  refine ⟨1, @VariantOf.table _ _ _ 0 _ _ _ List.mem_cons_self rfl ?_⟩
  have hseen : Shuffled (("kind", Eq) :: TypeExpr.nameParts)
      [(some "kind", .string "qualified-name"), (some "names", .list [.string "T"])]
      [(some "seen", .null), (some "kind", .string "qualified-name"),
        (some "names", .list [.string "T"])] := .extra _ rfl .null
  exact hseen.trans (.of_perm (@List.perm_append_comm _ [_, _] [_]))

theorem rearranged_signatureNode :
    RecordOf (TypeExpr.signatureParts TypeExpr.Rearranged) signatureNode mixedSignatureNode := by
  have hreturn : Parts.Allows (TypeExpr.signatureParts TypeExpr.Rearranged) (some "return")
      typeNode mixedTypeNode := .part rfl rearranged_typeNode
  exact .table (.trans (.cons hreturn (.refl _)) (.of_perm (.swap ..)))

theorem rearranged_methodNode : Rearranged methodNode mixedNode := by
  have hsig : Parts.Allows MethodTable.overloadParts (some "sig") signatureNode
      mixedSignatureNode := .part rfl rearranged_signatureNode
  have hmethods : Parts.Allows Class.parts (some "methods")
      (.table [(some "f", .list [.table [(some "sig", signatureNode)]])])
      (.table [(some "f", .list [.table [(some "sig", mixedSignatureNode)]])]) :=
    .part rfl (.table (.cons ⟨rfl, .list (.cons (.table (.cons hsig .nil)) .nil)⟩ .nil))
  have hclasses : Parts.Allows parts (some "classes") (classesNode signatureNode)
      (classesNode mixedSignatureNode) :=
    .part rfl (.table (.cons ⟨rfl, .table (.cons hmethods .nil)⟩ .nil))
  have hchanged : List.Forall₂ (fun e e' => e'.1 = e.1 ∧ parts.Allows e.1 e.2 e'.2)
      [(some "classes", classesNode signatureNode), (some "opaqueTypes", .list [.string "T"])]
      [(some "classes", classesNode mixedSignatureNode),
        (some "opaqueTypes", .list [.string "T"])] :=
    .cons ⟨rfl, hclasses⟩ (.cons ⟨rfl, .same⟩ .nil)
  have hextras : ∀ e ∈ [(some "note", Node.string "x")],
      ∃ name, e.1 = some name ∧ parts.lookup name = none ∧ e.2.IsPlain :=
    List.forall_mem_singleton.2 ⟨"note", rfl, rfl, .string "x"⟩
  exact .table (.intro hchanged hextras (@List.perm_append_comm _ [_, _] [_]))

theorem parse_methodText : parse .json methodText = .ok methodSpec := by
  decide +kernel

theorem document_methodText : Json.document methodText = ⟨.json, methodNode, true⟩ := by
  decide +kernel

theorem document_mixedText : Json.document mixedText = ⟨.json, mixedNode, true⟩ := by
  decide +kernel

theorem parse_rearranged_mixedText :
    parse .json methodText = .ok methodSpec ∧
      (∃ x x', Json.Written (.element x) methodText.toList ∧
        Json.Written (.element x') mixedText.toList ∧ Rearranged x.node x'.node) ∧
      parse .json mixedText = .ok methodSpec := by
  obtain ⟨⟨x, hx⟩, hmixed⟩ := parse_rearranged parse_methodText
  obtain ⟨x', hx'⟩ := Json.complete_iff.1 (congrArg Document.complete document_mixedText)
  have hnode : x.node = methodNode :=
    congrArg Document.root (hx.document.symm.trans document_methodText)
  have hnode' : x'.node = mixedNode :=
    congrArg Document.root (hx'.document.symm.trans document_mixedText)
  have hrearranged : Rearranged x.node x'.node := by
    rw [hnode, hnode']
    exact rearranged_methodNode
  have hparse := hmixed x x' mixedText hx hx' hrearranged
  exact ⟨parse_methodText, ⟨x, x', hx, hx', hrearranged⟩, hparse⟩

end Spec

end Bindery
