import Bindery.Proofs.Target.Block
import Bindery.Proofs.Target.Enumerations

/-!
# The members of flag enumerations in the output

`assigns_of_infix`: every target writes a flag enumeration as one block with a line for each member,
which gives it its literal.
-/

namespace Bindery

namespace TargetId

/-- The unit with the enumerations. -/
def enumerationUnit : TargetId → String
  | .typescript => "enums.ts"
  | .python => "native.pyi"

/-- A flag enumeration around the lines of its members. -/
def flagBlock : TargetId → String → List String → List String
  | .typescript, name, lines =>
    ("export const enum " ++ entityIdentifier name ++ " \x7b") :: (lines ++ ["\x7d;"])
  | .python, name, lines =>
    ("class " ++ entityIdentifier name ++ "(IntFlag):") :: (lines ++ [""])

/-- A line that gives a member its value. -/
def flagLine : TargetId → String → String → String
  | .typescript, member, value => "  " ++ member ++ " = " ++ value ++ ","
  | .python, member, value => "    " ++ Python.identifiers.enumMember member ++ " = " ++ value

/-- The unit has the block of a flag enumeration with a line for each member in their order, and
that of the member gives it the value. -/
def Assigns (id : TargetId) (u : OutputUnit) (enumeration : String) (members : List String)
    (member value : String) : Prop :=
  member ∈ members ∧
    ∃ lines, id.flagBlock enumeration lines <:+: u.lines ∧ lines.length = members.length ∧
      ∀ i : Nat, members[i]? = some member → lines[i]? = some (id.flagLine member value)

/-! ## Blocks and their lines -/

def enumerationBlock : TargetId → String → Enumeration → List Constant → List String
  | .typescript => TypeScript.enumerationBlock
  | .python => Python.enumerationBlock

def constantLine : TargetId → Constant → String
  | .typescript => TypeScript.constantLine
  | .python => Python.constantLine

theorem constantLine_flag (id : TargetId) (member literal : String) :
    id.constantLine (.flag member literal) = id.flagLine member literal := by
  cases id <;> rfl

theorem enumerationBlock_flag (id : TargetId) (name : String) {e : Enumeration}
    {constants : List Constant} (hflag : e.isFlag = true) (hne : constants ≠ []) :
    id.enumerationBlock name e constants = id.flagBlock name (constants.map id.constantLine) := by
  cases id with
  | typescript => rfl
  | python =>
      have hhead : "class " ++ entityIdentifier name ++ "(" ++ "IntFlag" ++ "):" =
          "class " ++ entityIdentifier name ++ "(IntFlag):" := by
        rw [String.append_assoc, String.append_assoc]
        rfl
      have hbody : (Python.body (.ofLines (constants.map Python.constantLine))).lines =
          constants.map Python.constantLine := by
        simp [Python.body, hne]
      rw [enumerationBlock, Python.enumerationBlock, hflag, if_pos rfl, hhead, hbody]
      rfl

end TargetId

/-- The constants of a flag enumeration whose members all have integers. -/
theorem Enumeration.constants_valued {values : OrderedMap (Option Number)}
    (h : ∀ value ∈ values.values, ∃ i, value = some (.integer i)) :
    (Enumeration.mk true (.valued values)).constants =
      values.entries.map fun entry => .flag entry.1 ((entry.2.bind Number.literal?).getD "") := by
  have hconstant : ∀ entry ∈ values.entries,
      (entry.2.bind Number.literal?).map (Constant.flag entry.1) =
        some (.flag entry.1 ((entry.2.bind Number.literal?).getD "")) := by
    intro entry hentry
    obtain ⟨i, hi⟩ := OrderedMap.forall_mem_values.1 h entry hentry
    rw [hi]
    rfl
  exact (List.filterMap_congr hconstant).trans (congrFun List.filterMap_eq_map' _)

/-- Every enumeration stands in the text of all of them. -/
theorem Spec.block_infix {s : Spec} {name : String} {e : Enumeration}
    (h : s.enumerations.get? name = some e)
    (write : String → Enumeration → List Constant → List String) :
    write name e e.constants <:+: s.enumerationBlocks write :=
  List.infix_of_mem_flatten (List.mem_map.2 ⟨_, OrderedMap.get?_eq_some_iff.1 h, rfl⟩)

/-- A unit that has all enumerations gives a member of a flag enumeration its literal. -/
theorem TargetId.assigns_of_infix {id : TargetId} {u : OutputUnit} {s : Spec}
    {enumeration member literal : String} {values : OrderedMap (Option Number)} {number : Number}
    (hunit : s.enumerationBlocks id.enumerationBlock <:+: u.lines)
    (hvalues : ∀ e ∈ s.enumerations.values, e.ValuesFit)
    (hget : s.enumerations.get? enumeration = some ⟨true, .valued values⟩)
    (hvalue : values.get? member = some (some number)) (hliteral : number.literal? = some literal) :
    id.Assigns u enumeration values.keys member literal := by
  have hfits : (Enumeration.mk true (.valued values)).ValuesFit :=
    hvalues _ (List.mem_map.2 ⟨_, OrderedMap.get?_eq_some_iff.1 hget, rfl⟩)
  have hintegers : ∀ value ∈ values.values, ∃ i, value = some (.integer i) := by
    obtain hnone | ⟨_, heq, h⟩ := hfits.flag rfl
    · cases hnone
    · cases heq
      exact h
  have hconstants := Enumeration.constants_valued hintegers
  have hmem := OrderedMap.get?_eq_some_iff.1 hvalue
  have hblock := (Spec.block_infix hget id.enumerationBlock).trans hunit
  rw [enumerationBlock_flag id enumeration rfl, hconstants] at hblock
  · refine ⟨List.mem_map_of_mem hmem, _, hblock, by simp [OrderedMap.keys], fun i hi => ?_⟩
    rw [OrderedMap.keys, List.getElem?_map, Option.map_eq_some_iff] at hi
    obtain ⟨⟨key, value⟩, hentry, rfl⟩ := hi
    have hsame := OrderedMap.get?_eq_some_iff.2 (List.mem_of_getElem? hentry)
    rw [hvalue, Option.some.injEq] at hsame
    rw [List.map_map, List.getElem?_map, hentry, Option.map_some, Function.comp_apply,
      constantLine_flag, ← hsame, Option.bind_some, hliteral, Option.getD_some]
  · rw [hconstants]
    exact List.ne_nil_of_mem (List.mem_map_of_mem hmem)

end Bindery
