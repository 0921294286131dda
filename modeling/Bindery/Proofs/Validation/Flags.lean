import Bindery.Proofs.Validation.Soundness

/-!
# Violations about the value of a member

`mem_validate_iff`: only the check of the values finds them, in the enumeration they name.
-/

namespace Bindery

/-- The enumeration and the member whose value a violation is about. -/
def Violation.member? : Violation → Option (String × String)
  | .flagWithoutValue e m => some (e, m)
  | .flagNotInteger e m _ => some (e, m)
  | _ => none

namespace Validation

variable {s : Spec} {rules : IdentifierRules}

/-- No violation of the list is about the value of a member. -/
def Unvalued (violations : List Violation) : Prop :=
  ∀ v ∈ violations, v.member? = none

theorem unvalued_nil : Unvalued [] := nofun

theorem unvalued_singleton {v : Violation} (h : v.member? = none) : Unvalued [v] := by
  simpa [Unvalued] using h

theorem Unvalued.append {vs ws : List Violation} (hvs : Unvalued vs) (hws : Unvalued ws) :
    Unvalued (vs ++ ws) :=
  List.forall_mem_append.2 ⟨hvs, hws⟩

theorem unvalued_flatMap {α : Type} {xs : List α} {f : α → List Violation}
    (h : ∀ x ∈ xs, Unvalued (f x)) : Unvalued (xs.flatMap f) := by
  intro v hv
  obtain ⟨x, hx, hmem⟩ := List.mem_flatMap.1 hv
  exact h x hx v hmem

theorem unvalued_collisions (scope : String) (render : String → String) (names : List String) :
    Unvalued (collisions scope render names) := by
  intro v hv
  rw [collisions_eq_filterMap] at hv
  obtain ⟨name, -, hname⟩ := List.mem_filterMap.1 hv
  obtain ⟨first, -, hfirst⟩ := Option.bind_eq_some_iff.1 hname
  split_ifs at hfirst
  cases hfirst
  rfl

theorem unvalued_duplicatesAfter (seen declarations : List (String × EntityKind)) :
    Unvalued (duplicatesAfter seen declarations) := by
  induction declarations generalizing seen with
  | nil => exact unvalued_nil
  | cons declaration rest ih =>
      rw [duplicatesAfter]
      split
      · exact List.forall_mem_cons.2 ⟨rfl, ih _⟩
      · exact ih _

theorem unvalued_ofDeclarations : Unvalued (ofDeclarations s) :=
  (unvalued_duplicatesAfter _ _).append (unvalued_collisions _ _ _)

theorem unvalued_ofType (location : String) (t : TypeExpr) : Unvalued (ofType location t) := by
  induction t with
  | name path isConst indirection =>
      rw [ofType]
      split
      · exact unvalued_singleton rfl
      · exact unvalued_nil
  | template path arguments isConst ih =>
      rw [ofType, ofTypes_eq_flatMap]
      refine Unvalued.append ?_ (unvalued_flatMap ih)
      split
      · exact unvalued_singleton rfl
      · exact unvalued_nil
  | function arguments result isConst isNoExcept hargs hresult =>
      rw [ofType, ofArguments_eq_flatMap]
      exact (unvalued_flatMap hargs).append hresult

theorem unvalued_ofRecord (name : String) (r : Record) : Unvalued (ofRecord s rules name r) := by
  refine Unvalued.append (unvalued_flatMap fun entry _ => ?_) (unvalued_collisions _ _ _)
  refine (unvalued_ofType _ _).append ?_
  split
  · exact unvalued_singleton rfl
  · exact unvalued_nil

theorem unvalued_ofMethods (scope : String) (table : MethodTable) :
    Unvalued (ofMethods rules scope table) := by
  refine unvalued_flatMap fun entry _ => unvalued_flatMap fun sig _ => ?_
  rw [ofSignature, ofArguments_eq_flatMap]
  exact ((unvalued_flatMap fun _ _ => unvalued_ofType _ _).append (unvalued_ofType _ _)).append
    (unvalued_collisions _ _ _)

theorem unvalued_ofClass (name : String) (c : Class) : Unvalued (ofClass rules name c) :=
  ((((unvalued_flatMap fun _ _ => unvalued_ofType _ _).append (unvalued_ofMethods _ _)).append
    (unvalued_ofMethods _ _)).append (unvalued_collisions _ _ _)).append (unvalued_collisions _ _ _)

theorem unvalued_ofInterface (name : String) (i : Interface) :
    Unvalued (ofInterface rules name i) :=
  (unvalued_ofMethods _ _).append (unvalued_collisions _ _ _)

/-! ## The check of the values -/

theorem member?_of_mem_ofFlagValue {enumeration member : String} {value : Option Number}
    {v : Violation} (h : v ∈ ofFlagValue enumeration member value) :
    v.member? = some (enumeration, member) := by
  rw [ofFlagValue.eq_def] at h
  split at h
  · rw [List.mem_singleton.1 h]
    rfl
  · split at h
    · cases h
    · rw [List.mem_singleton.1 h]
      rfl

theorem enumeration_of_mem_ofMemberValues {name enumeration member : String} {e : Enumeration}
    {v : Violation} (h : v.member? = some (enumeration, member))
    (hmem : v ∈ ofMemberValues name e) : name = enumeration := by
  obtain ⟨isFlag, members⟩ := e
  cases members with
  | plain names =>
      cases isFlag with
      | false => cases hmem
      | true =>
          obtain ⟨other, -, rfl⟩ := List.mem_map.1 hmem
          exact (Prod.mk.inj (Option.some.inj h)).1
  | valued values =>
      cases isFlag with
      | false =>
          rw [List.mem_singleton.1 hmem] at h
          cases h
      | true =>
          obtain ⟨entry, -, hvalue⟩ := List.mem_flatMap.1 hmem
          rw [member?_of_mem_ofFlagValue hvalue] at h
          exact (Prod.mk.inj (Option.some.inj h)).1

theorem mem_ofMemberValues_valued_iff {enumeration member : String}
    {values : OrderedMap (Option Number)} {v : Violation}
    (h : v.member? = some (enumeration, member)) :
    v ∈ ofMemberValues enumeration ⟨true, .valued values⟩ ↔
      ∃ value, values.get? member = some value ∧ v ∈ ofFlagValue enumeration member value := by
  constructor
  · intro hmem
    obtain ⟨⟨name, value⟩, hentry, hvalue⟩ := List.mem_flatMap.1 hmem
    rw [member?_of_mem_ofFlagValue hvalue] at h
    obtain ⟨-, rfl⟩ := Prod.mk.inj (Option.some.inj h)
    exact ⟨value, OrderedMap.get?_eq_some_iff.2 hentry, hvalue⟩
  · rintro ⟨value, hget, hvalue⟩
    exact List.mem_flatMap.2 ⟨_, OrderedMap.get?_eq_some_iff.1 hget, hvalue⟩

end Validation

open Validation

theorem Spec.mem_validate_iff {s : Spec} {rules : IdentifierRules} {enumeration member : String}
    {v : Violation} (h : v.member? = some (enumeration, member)) :
    v ∈ s.validate rules ↔
      ∃ e, s.enumerations.get? enumeration = some e ∧ v ∈ ofMemberValues enumeration e := by
  have hnot {vs : List Violation} (hvs : Unvalued vs) : v ∉ vs := by
    intro hv
    rw [hvs v hv] at h
    cases h
  have helsewhere : v ∈ s.validate rules ↔
      v ∈ s.enumerations.entries.flatMap fun entry => ofEnumeration rules entry.1 entry.2 := by
    simp only [validate, List.mem_append, hnot unvalued_ofDeclarations,
      hnot (unvalued_flatMap fun _ _ => unvalued_ofRecord _ _),
      hnot (unvalued_flatMap fun _ _ => unvalued_ofClass _ _),
      hnot (unvalued_flatMap fun _ _ => unvalued_ofInterface _ _),
      hnot (unvalued_flatMap fun _ _ => unvalued_ofType _ _), or_false, false_or]
  rw [helsewhere, List.mem_flatMap]
  constructor
  · rintro ⟨⟨name, e⟩, hentry, hmem⟩
    have hvalues := (List.mem_append.1 hmem).resolve_left (hnot (unvalued_collisions _ _ _))
    obtain rfl := enumeration_of_mem_ofMemberValues h hvalues
    exact ⟨e, OrderedMap.get?_eq_some_iff.2 hentry, hvalues⟩
  · rintro ⟨e, hget, hvalues⟩
    exact ⟨_, OrderedMap.get?_eq_some_iff.1 hget, List.mem_append_right _ hvalues⟩

end Bindery
