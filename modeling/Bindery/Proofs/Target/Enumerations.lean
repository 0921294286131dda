import Bindery.Proofs.Validation.Soundness
import Bindery.Target.Python
import Bindery.Target.TypeScript

/-!
# The members of enumerations

A target can write an enumeration exactly if validation has nothing against its values, and else is
given the same violations.
-/

namespace Bindery

/-- The members that can be written. -/
def Enumeration.constants (e : Enumeration) : List Constant :=
  match e.members with
  | .plain names => names.map .named
  | .valued values =>
    values.entries.filterMap fun entry =>
      (entry.2.bind Number.literal?).map (.flag entry.1)

namespace Constant

def name : Constant → String
  | .named name => name
  | .flag name _ => name

open Validation

theorem ofFlags_eq (name : String) (values : List (String × Option Number)) :
    ofFlags name values =
      (values.filterMap fun entry => (entry.2.bind Number.literal?).map (.flag entry.1),
        values.flatMap fun entry => ofFlagValue name entry.1 entry.2) := by
  induction values with
  | nil => rfl
  | cons entry values ih =>
      obtain ⟨member, value⟩ := entry
      rw [ofFlags, ih]
      cases value with
      | none => rfl
      | some number => cases number <;> rfl

theorem ofEnumeration_eq (name : String) (e : Enumeration) :
    ofEnumeration name e =
      if ofMemberValues name e = [] then .ok e.constants else .error (ofMemberValues name e) := by
  obtain ⟨isFlag, members⟩ := e
  cases isFlag with
  | false => cases members <;> simp [ofEnumeration, ofMemberValues, Enumeration.constants]
  | true =>
      cases members with
      | plain names => cases names <;> simp [ofEnumeration, ofMemberValues, Enumeration.constants]
      | valued values =>
          simp only [ofEnumeration, ofFlags_eq, ofMemberValues, Enumeration.constants]
          split
          · rename_i heq
            obtain ⟨hconstants, hviolations⟩ := Prod.ext_iff.1 heq
            simp_all
          · rename_i hne heq
            obtain ⟨hconstants, hviolations⟩ := Prod.ext_iff.1 heq
            simp_all

end Constant

/-- The members are written or refused, as validation judges them. -/
theorem enumerationActions_cons (r : Resolver) (unit : String)
    (write : String → Enumeration → List Constant → List String) (name : String) (e : Enumeration)
    (entries : List (String × Enumeration)) :
    enumerationActions r unit write ((name, e) :: entries) =
      .note (Visit.log r (.entity .enumeration name)) ::
        (if Validation.ofMemberValues name e = [] then
          .add unit (.ofLines (write name e e.constants))
        else .refuse (Validation.ofMemberValues name e)) ::
        enumerationActions r unit write entries := by
  rw [enumerationActions, List.flatMap_cons]
  simp only [Constant.ofEnumeration_eq]
  by_cases h : Validation.ofMemberValues name e = [] <;> simp [h, enumerationActions,
    Constant.ofEnumeration_eq]

/-! ## Specs whose values fit -/

/-- The lines of all enumerations, one block after the other. -/
def Spec.enumerationBlocks (s : Spec)
    (write : String → Enumeration → List Constant → List String) : List String :=
  s.enumerations.entries.flatMap fun entry => write entry.1 entry.2 entry.2.constants

/-- A target can write every enumeration of the spec. -/
def Spec.ValuesFit (s : Spec) : Prop :=
  ∀ e ∈ s.enumerations.values, e.ValuesFit

end Bindery
