import Bindery.Proofs.Json.Integer
import Bindery.Proofs.Spec.Names
import Bindery.Proofs.Target.Python

/-!
# The names in statements

What holds of every name of a spec holds of the names in its statements.
-/

namespace Bindery

namespace Constant

/-- The text of the integer that a flag stands for. -/
def literal? : Constant → Option String
  | .named _ => none
  | .flag _ literal => some literal

end Constant

/-- The names that a member takes from the spec, apart from those in types. -/
def Member.names : Member → List String
  | .field name _ _ => [name]
  | .method name _ _ parameters _ => name :: parameters.map Prod.fst

namespace Statement

/-- The names inside a statement, apart from those in types. -/
def memberNames : Statement → List String
  | .comment _ => []
  | .blank => []
  | .words _ _ => []
  | .entities _ _ => []
  | .enumeration _ _ constants => constants.map Constant.name
  | .opaqueType _ => []
  | .typeAlias _ _ => []
  | .record _ members => members.flatMap Member.names
  | .objectClass _ members => members.flatMap Member.names
  | .interface _ members => members.flatMap Member.names

/-- The texts in a statement that are neither names nor types. -/
def texts : Statement → List String
  | .comment text => [text]
  | .blank => []
  | .words module names => module :: names
  | .entities module _ => [module]
  | .enumeration _ _ constants => constants.filterMap Constant.literal?
  | .opaqueType _ => []
  | .typeAlias _ _ => []
  | .record _ _ => []
  | .objectClass _ _ => []
  | .interface _ _ => []

end Statement

/-! ## Enumerations -/

theorem Enumeration.name_mem_of_mem_constants {e : Enumeration} {c : Constant}
    (h : c ∈ e.constants) : c.name ∈ e.memberNames := by
  obtain ⟨isFlag, members⟩ := e
  cases members with
  | plain names =>
      obtain ⟨name, hname, rfl⟩ := List.mem_map.1 h
      exact hname
  | valued values =>
      obtain ⟨entry, hentry, hflag⟩ := List.mem_filterMap.1 h
      obtain ⟨literal, -, rfl⟩ := Option.map_eq_some_iff.1 hflag
      exact List.mem_map_of_mem hentry

/-- Literals are integers. -/
theorem Enumeration.exists_integer_of_mem_constants {e : Enumeration} {c : Constant}
    {literal : String} (h : c ∈ e.constants) (hliteral : c.literal? = some literal) :
    ∃ i : Int, literal.toList = Json.integerText i := by
  obtain ⟨isFlag, members⟩ := e
  cases members with
  | plain names =>
      obtain ⟨name, -, rfl⟩ := List.mem_map.1 h
      cases hliteral
  | valued values =>
      obtain ⟨entry, -, hflag⟩ := List.mem_filterMap.1 h
      obtain ⟨text, htext, rfl⟩ := Option.map_eq_some_iff.1 hflag
      cases hliteral
      obtain ⟨number, -, hnumber⟩ := Option.bind_eq_some_iff.1 htext
      cases number with
      | integer i =>
          cases hnumber
          exact ⟨i, rfl⟩
      | real x => cases hnumber

/-! ## The names of a spec in its statements -/

namespace Spec.EveryName

variable {s : Spec} {m : Mapping} {p : String → Prop}

theorem ofMethods {isStatic : Bool} {table : MethodTable} (hnames : ∀ name ∈ table.keys, p name)
    (harguments : ∀ overloads ∈ table.values, ∀ sig ∈ overloads,
      ∀ name ∈ sig.arguments.map Prod.fst, p name) :
    ∀ member ∈ Member.ofMethods s m isStatic table, ∀ name ∈ member.names, p name := by
  refine List.forall_mem_flatMap.2 fun entry hentry => List.forall_mem_map.2 fun sig hsig => ?_
  rw [Member.names, TypeExpr.shapeArguments_eq_map, List.map_map]
  exact List.forall_mem_cons.2 ⟨hnames _ (List.mem_map_of_mem hentry),
    harguments _ (List.mem_map_of_mem hentry) sig hsig⟩

variable (h : s.EveryName p)

include h

theorem ofEnumeration : ∀ entry ∈ s.enumerations.entries,
    ∀ name ∈ (Statement.ofEnumeration entry).memberNames, p name :=
  fun _ hentry => List.forall_mem_map.2 fun _ hc =>
    h.constants _ (List.mem_map_of_mem hentry) _ (Enumeration.name_mem_of_mem_constants hc)

theorem ofRecord : ∀ entry ∈ s.records.entries,
    ∀ name ∈ (Statement.ofRecord s m entry).memberNames, p name := by
  intro entry hentry
  have hfields := h.fields _ (List.mem_map_of_mem hentry)
  simpa [Statement.ofRecord, Statement.memberNames, List.flatMap_map, Member.ofField,
    Member.names, OrderedMap.keys] using hfields

theorem ofClass : ∀ entry ∈ s.classes.entries,
    ∀ name ∈ (Statement.ofClass s m entry).memberNames, p name := by
  intro entry hentry
  have hclass : entry.2 ∈ s.classes.values := List.mem_map_of_mem hentry
  rw [Statement.ofClass, Statement.memberNames, List.forall_mem_flatMap, List.forall_mem_append,
    List.forall_mem_append]
  refine ⟨⟨?_, ?_⟩, ?_⟩
  · exact ofMethods (h.staticMethods _ hclass) fun _ ho sig hsig =>
      h.arguments sig (.staticMethod hclass ho hsig)
  · refine List.forall_mem_map.2 fun property hproperty => List.forall_mem_singleton.2 ?_
    exact h.properties _ hclass _ (List.mem_map_of_mem hproperty)
  · exact ofMethods (h.methods _ hclass) fun _ ho sig hsig =>
      h.arguments sig (.method hclass ho hsig)

theorem ofInterface : ∀ entry ∈ s.interfaces.entries,
    ∀ name ∈ (Statement.ofInterface s m entry).memberNames, p name := by
  intro entry hentry
  have hinterface : entry.2 ∈ s.interfaces.values := List.mem_map_of_mem hentry
  exact List.forall_mem_flatMap.2 (ofMethods (h.interfaceMethods _ hinterface)
    fun _ ho sig hsig => h.arguments sig (.interfaceMethod hinterface ho hsig))

end Spec.EveryName

end Bindery
