import Bindery.Proofs.Json.Quotation
import Bindery.Proofs.Resolution.Shape
import Bindery.Proofs.Spec.TypeReading
import Bindery.Proofs.Target.Comment
import Bindery.Proofs.Target.Literal
import Bindery.Target.Registry

/-!
# Arguments recovered from placeholders

A template without a place in the target is written as a placeholder, and nothing of its arguments
is lost in it. `templatePlaceholder_lossless`: they are read from the comment as it stands there,
whatever it escapes, or from what the literal stands for; and no other arguments leave the same
text.
-/

namespace Bindery

open Text

/-- The target has no template of that name that takes so many arguments. -/
def Mapping.Lacks (m : Mapping) (path : List String) (arguments : List TypeExpr) : Prop :=
  ∀ rule, m.template? (joinPath path) = some rule → arguments.length ≠ rule.arity

/-- The document is a list of types. -/
def Holds (json : String) (types : List TypeExpr) : Prop :=
  (Json.document json).read (Reading.list TypeExpr.read) = .ok types

/-- What a placeholder shows in a target, besides the name of a template: the arguments, which are
read from a part of it. -/
def TargetId.Tells : TargetId → String → String → List TypeExpr → Prop
  | .typescript, text, fullName, arguments => ∃ json,
    text = "unknown /* " ++ replaced "*/" "*\\/" fullName ++ "<" ++ json ++ "> */" ∧
      ¬ "*/".toList <:+: (replaced "*/" "*\\/" fullName ++ "<" ++ json ++ "> ").toList ∧
      Holds json arguments
  | .python, text, fullName, arguments => ∃ literal json,
    text = "Annotated[Any, " ++ literal ++ "]" ∧
      Python.evaluated? literal = some ("unknown: " ++ fullName ++ "<" ++ json ++ ">") ∧
      Holds json arguments

variable {path : List String} {arguments : List TypeExpr}

namespace Resolver

theorem value_resolve_of_lacks {r : Resolver} (h : r.mapping.Lacks path arguments)
    (isConst : Bool) :
    (r.resolve (.template path arguments isConst)).value =
      r.guarded isConst (r.mapping.placeholder (templateDetail (joinPath path) arguments)) := by
  rw [value_resolve_template]
  cases hrule : r.mapping.template? (joinPath path) with
  | none => rfl
  | some rule => simp [h rule hrule]

end Resolver

/-! ## Documents of types -/

/-- The text, as characters, spells the types. -/
abbrev SpellsTypes (types : List TypeExpr) (text : List Char) : Prop :=
  Json.Spells (.value (Json.list (TypeExpr.listToJson types)).node) text

theorem Json.Spells.holds {types : List TypeExpr} {json : String}
    (h : SpellsTypes types json.toList)
    (hnesting : (Json.list (TypeExpr.listToJson types)).node.height ≤ 127) : Holds json types := by
  have hdocument := h.document
  rw [String.ofList_toList] at hdocument
  have hread := TypeExpr.read_arguments (r := .json) (.inr hnesting)
  simp [Holds, Document.read, hdocument, hread]

/-- Other types have another node, at any depth: what is held is read without a limit. -/
theorem TypeExpr.node_listToJson_inj {ts us : List TypeExpr}
    (h : (Json.list (listToJson ts)).node = (Json.list (listToJson us)).node) : ts = us := by
  have hread (types : List TypeExpr) : Reading.json.afterHold.list read
      (Json.list (listToJson types)).node = .ok types := read_arguments (.inl rfl)
  exact Except.ok.inj ((hread ts).symm.trans (h ▸ hread us))

/-- What stands behind the name in a detail shows one list of arguments only, whatever the name
is. -/
theorem eq_of_detail_eq {ts us : List TypeExpr} {a b t u : List Char} (ht : SpellsTypes ts t)
    (hu : SpellsTypes us u) (h : a ++ '<' :: (t ++ ['>']) = b ++ '<' :: (u ++ ['>'])) :
    ts = us := by
  have hcut : a ++ '<' :: t = b ++ '<' :: u :=
    (List.append_left_inj ['>']).1 (by simpa using h)
  obtain rfl := ht.eq_of_append_eq hu hcut
  exact TypeExpr.node_listToJson_inj (ht.unique hu)

theorem toList_templateDetail (path : List String) (arguments : List TypeExpr) :
    (Resolver.templateDetail (joinPath path) arguments).toList = (joinPath path).toList ++
      '<' :: ((Json.list (TypeExpr.listToJson arguments)).compactText ++ ['>']) := by
  simp [Resolver.templateDetail, Json.compact]

/-! ## Comments -/

namespace TypeScript

theorem replaced_templateDetail (path : List String) (arguments : List TypeExpr) :
    ∃ json, SpellsTypes arguments json.toList ∧
      replaced "*/" "*\\/" (Resolver.templateDetail (joinPath path) arguments) =
        replaced "*/" "*\\/" (joinPath path) ++ "<" ++ json ++ ">" := by
  refine ⟨String.ofList (guardSlashes false
    (Json.list (TypeExpr.listToJson arguments)).compactText), ?_, ?_⟩
  · rw [String.toList_ofList]
    exact (TypeExpr.spelt_listToJson arguments).guardSlashes false
  · refine String.toList_inj.1 ?_
    simp only [toList_replaced, toList_templateDetail, String.toList_append, String.toList_ofList]
    rw [guardSlashes_append_cons (by decide), guardSlashes_append_cons (by decide)]
    simp [guardSlashes]

theorem tells_placeholder
    (hnesting : (Json.list (TypeExpr.listToJson arguments)).node.height ≤ 127) :
    TargetId.typescript.Tells
      (mapping.placeholder (Resolver.templateDetail (joinPath path) arguments))
      (joinPath path) arguments := by
  obtain ⟨json, hjson, hdetail⟩ := replaced_templateDetail path arguments
  refine ⟨json, ?_, ?_, hjson.holds hnesting⟩
  · refine String.toList_inj.1 ?_
    simp [mapping, comment, hdetail]
  · have hclosed := not_infix_guardSlashes false
      ((Resolver.templateDetail (joinPath path) arguments).toList ++ [' '])
    rw [guardSlashes_append_cons (by decide), ← toList_replaced, hdetail] at hclosed
    simpa [guardSlashes] using hclosed

theorem eq_of_placeholder_eq {p q : List String} {ts us : List TypeExpr}
    (h : mapping.placeholder (Resolver.templateDetail (joinPath p) ts) =
      mapping.placeholder (Resolver.templateDetail (joinPath q) us)) : ts = us := by
  obtain ⟨t, ht, htdetail⟩ := replaced_templateDetail p ts
  obtain ⟨u, hu, hudetail⟩ := replaced_templateDetail q us
  have hdetails : replaced "*/" "*\\/" (Resolver.templateDetail (joinPath p) ts) =
      replaced "*/" "*\\/" (Resolver.templateDetail (joinPath q) us) := by
    simpa [mapping, comment] using h
  rw [htdetail, hudetail] at hdetails
  exact eq_of_detail_eq ht hu (by simpa using congrArg String.toList hdetails)

end TypeScript

/-! ## Literals -/

namespace Python

theorem controlFree_templateDetail (hpath : ∀ part ∈ path, ControlFree part.toList) :
    ControlFree ("unknown: " ++ Resolver.templateDetail (joinPath path) arguments).toList := by
  have hname : ControlFree (joinPath path).toList := by
    rw [joinPath, joined, String.toList_ofList]
    exact ControlFree.join (by decide) (List.forall_mem_map.2 hpath)
  have hjson := (TypeExpr.spelt_listToJson arguments).controlFree
  rw [String.toList_append, toList_templateDetail]
  simp [hname, hjson]

theorem tells_placeholder (hpath : ∀ part ∈ path, ControlFree part.toList)
    (hnesting : (Json.list (TypeExpr.listToJson arguments)).node.height ≤ 127) :
    TargetId.python.Tells
      (mapping.placeholder (Resolver.templateDetail (joinPath path) arguments))
      (joinPath path) arguments := by
  have hjson :
      SpellsTypes arguments (Json.list (TypeExpr.listToJson arguments)).compact.toList := by
    rw [Json.compact, String.toList_ofList]
    exact TypeExpr.spelt_listToJson arguments
  refine ⟨_, _, rfl, ?_, hjson.holds hnesting⟩
  rw [evaluated?_stringLiteral (controlFree_templateDetail hpath)]
  simp [Resolver.templateDetail, String.append_assoc]

theorem eq_of_placeholder_eq {p q : List String} {ts us : List TypeExpr}
    (hp : ∀ part ∈ p, ControlFree part.toList) (hq : ∀ part ∈ q, ControlFree part.toList)
    (h : mapping.placeholder (Resolver.templateDetail (joinPath p) ts) =
      mapping.placeholder (Resolver.templateDetail (joinPath q) us)) : ts = us := by
  have hliterals : stringLiteral ("unknown: " ++ Resolver.templateDetail (joinPath p) ts) =
      stringLiteral ("unknown: " ++ Resolver.templateDetail (joinPath q) us) := by
    simpa [mapping] using h
  have htexts := congrArg evaluated? hliterals
  rw [evaluated?_stringLiteral (controlFree_templateDetail hp),
    evaluated?_stringLiteral (controlFree_templateDetail hq)] at htexts
  have hdetails : Resolver.templateDetail (joinPath p) ts =
      Resolver.templateDetail (joinPath q) us := by simpa using htexts
  have hchars := congrArg String.toList hdetails
  rw [toList_templateDetail, toList_templateDetail] at hchars
  exact eq_of_detail_eq (TypeExpr.spelt_listToJson ts) (TypeExpr.spelt_listToJson us) hchars

end Python

/-- A template that the target lacks leaves a placeholder, read-only if the template is constant,
that tells its arguments; and the placeholder is that of no other arguments, whatever their template
is called. -/
theorem templatePlaceholder_lossless (id : TargetId) (s : Spec) (location : String)
    {path : List String} {arguments : List TypeExpr} (isConst : Bool)
    (hlacks : (Target.ofId id).mapping.Lacks path arguments)
    (hpath : ∀ part ∈ path, ControlFree part.toList)
    (hnesting : (Json.list (TypeExpr.listToJson arguments)).node.height ≤ 127) :
    let r : Resolver := { spec := s, mapping := (Target.ofId id).mapping, location }
    ∃ text, (r.resolve (.template path arguments isConst)).value = r.guarded isConst text ∧
      id.Tells text (joinPath path) arguments ∧
      ∀ path' arguments', r.mapping.Lacks path' arguments' →
        (∀ part ∈ path', ControlFree part.toList) →
        (r.resolve (.template path' arguments' false)).value = text → arguments' = arguments := by
  intro r
  refine ⟨_, Resolver.value_resolve_of_lacks hlacks isConst, ?_, ?_⟩
  · cases id with
    | typescript => exact TypeScript.tells_placeholder hnesting
    | python => exact Python.tells_placeholder hpath hnesting
  · intro path' arguments' hlacks' hpath' h
    rw [Resolver.value_resolve_of_lacks hlacks' false] at h
    cases id with
    | typescript => exact TypeScript.eq_of_placeholder_eq h
    | python => exact Python.eq_of_placeholder_eq hpath' hpath h

/-- An argument whose name would end the comment. -/
def boxed : List TypeExpr := [.name ["*/"] true {}]

theorem templatePlaceholder_lossless_boxed :
    TargetId.typescript.Tells
      ("unknown /* Box<[\x7b\"kind\":\"qualified-name\",\"names\":[\"*\\/\"],\"isConst\":true," ++
        "\"isPointer\":false,\"isReference\":false,\"isRvalueReference\":false\x7d]> */")
      "Box" boxed ∧
    ∃ text, TargetId.python.Tells text "Box" boxed := by
  have hlacks (id : TargetId) : (Target.ofId id).mapping.Lacks ["Box"] boxed := by
    have hnone : (Target.ofId id).mapping.template? (joinPath ["Box"]) = none := by
      cases id <;> rfl
    intro rule hrule
    rw [hnone] at hrule
    cases hrule
  have hpath : ∀ part ∈ ["Box"], ControlFree part.toList := by decide
  have hnesting : (Json.list (TypeExpr.listToJson boxed)).node.height ≤ 127 := by decide
  obtain ⟨text, hvalue, htells, -⟩ :=
    templatePlaceholder_lossless .typescript {} "" false (hlacks .typescript) hpath hnesting
  obtain ⟨told, -, htold, -⟩ :=
    templatePlaceholder_lossless .python {} "" false (hlacks .python) hpath hnesting
  refine ⟨?_, told, htold⟩
  convert htells using 1
  · exact (hvalue.symm.trans (by decide +kernel)).symm
  · rfl

end Bindery
