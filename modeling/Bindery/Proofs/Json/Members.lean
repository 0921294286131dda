import Bindery.Proofs.Document.Schema
import Bindery.Proofs.Json.Source
import Mathlib.Data.List.Nodup

/-!
# Where a value stands in a text

In a text that repeats no name, a member of an object and a field of a record are what is found
under their names.
-/

namespace Bindery

/-- The names that can be read, each once. -/
def NamedOnce {α : Type} (entries : List (Option String × α)) : Prop :=
  (entries.filterMap Prod.fst).Nodup

section

variable {α β : Type} {entries : List (Option String × α)} {name : String} {value : α}

theorem NamedOnce.find? (h : NamedOnce entries) (hmem : (some name, value) ∈ entries) :
    entries.find? (·.1 == some name) = some (some name, value) := by
  induction entries with
  | nil => cases hmem
  | cons entry entries ih =>
      rcases List.mem_cons.1 hmem with rfl | hlater
      · exact List.find?_cons_of_pos (by simp)
      · have hrest : NamedOnce entries := h.sublist ((List.sublist_cons_self _ _).filterMap _)
        have hne : entry.1 ≠ some name := by
          intro heq
          rw [NamedOnce, List.filterMap_cons_some heq] at h
          exact (List.nodup_cons.1 h).1 (List.mem_filterMap.2 ⟨_, hlater, rfl⟩)
        rw [List.find?_cons_of_neg (by simpa using hne)]
        exact ih hrest hlater

theorem NamedOnce.reverse (h : NamedOnce entries) : NamedOnce entries.reverse := by
  rw [NamedOnce, List.filterMap_reverse]
  exact List.nodup_reverse.2 h

theorem NamedOnce.map (f : α → β) (h : NamedOnce entries) :
    NamedOnce (entries.map fun e => (e.1, f e.2)) := by
  rw [NamedOnce, List.filterMap_map]
  exact h

theorem lookup_eq_find? (name : String) (entries : List (Option String × α)) :
    entries.lookup (some name) = (entries.find? (·.1 == some name)).map Prod.snd := by
  induction entries with
  | nil => rfl
  | cons entry entries ih =>
      rw [List.lookup_cons, List.find?_cons, BEq.comm (a := some name)]
      cases entry.1 == some name
      · exact ih
      · rfl

end

namespace Json.Source

mutual
/-- No object has two members of one name. -/
def Distinct : Source → Prop
  | .list items => ItemsDistinct items
  | .object members => NamedOnce members ∧ MembersDistinct members
  | _ => True

def ItemsDistinct : List Source → Prop
  | [] => True
  | item :: items => item.Distinct ∧ ItemsDistinct items

def MembersDistinct : List (Option String × Source) → Prop
  | [] => True
  | (_, value) :: members => value.Distinct ∧ MembersDistinct members
end

theorem itemsDistinct_iff {items : List Source} :
    ItemsDistinct items ↔ ∀ item ∈ items, item.Distinct := by
  induction items with
  | nil => simp [ItemsDistinct]
  | cons item items ih => simp [ItemsDistinct, ih]

theorem membersDistinct_iff {members : List (Option String × Source)} :
    MembersDistinct members ↔ ∀ m ∈ members, m.2.Distinct := by
  induction members with
  | nil => simp [MembersDistinct]
  | cons m members ih => simp [MembersDistinct, ih]

def members : Source → List (Option String × Source)
  | .object members => members
  | _ => []

/-- What a text says of the fields of a record: members by their names, items by their places. -/
def given {σ : Type} (s : Schema σ) : Source → List (Option String × Source)
  | .object members => members
  | .list items => (s.fields.map fun field => some field.name).zip items
  | _ => []

variable {σ : Type} {s : Schema σ} {x value : Source} {name : String}

theorem Distinct.member (h : x.Distinct) (hmem : (some name, value) ∈ x.members) :
    value.Distinct := by
  cases x with
  | object members => exact membersDistinct_iff.1 h.2 _ hmem
  | _ => cases hmem

theorem Distinct.given (h : x.Distinct) (hmem : (some name, value) ∈ x.given s) :
    value.Distinct := by
  cases x with
  | object members => exact membersDistinct_iff.1 h.2 _ hmem
  | list items => exact itemsDistinct_iff.1 h _ (List.of_mem_zip hmem).2
  | _ => cases hmem

theorem Distinct.namedOnce_members (h : x.Distinct) : NamedOnce x.members := by
  cases x with
  | object members => exact h.1
  | _ => exact List.nodup_nil

theorem namedOnce_zip {names : List String} (h : names.Nodup) (items : List Source) :
    NamedOnce ((names.map some).zip items) := by
  induction names generalizing items with
  | nil => exact List.nodup_nil
  | cons name names ih =>
      obtain ⟨hname, hnames⟩ := List.nodup_cons.1 h
      cases items with
      | nil => exact List.nodup_nil
      | cons item items =>
          refine List.nodup_cons.2 ⟨fun hmem => hname ?_, ih hnames items⟩
          obtain ⟨entry, hentry, hkey⟩ := List.mem_filterMap.1 hmem
          have hfirst := (List.of_mem_zip hentry).1
          rw [hkey] at hfirst
          simpa using hfirst

theorem Distinct.namedOnce_given (h : x.Distinct)
    (hnodup : (s.fields.map Schema.Field.name).Nodup) : NamedOnce (x.given s) := by
  cases x with
  | object members => exact h.1
  | list items =>
      have hzip := namedOnce_zip hnodup items
      rwa [List.map_map] at hzip
  | _ => exact List.nodup_nil

/-! ## What the document says there -/

theorem node_given? (h : x.Distinct) (hnodup : (s.fields.map Schema.Field.name).Nodup)
    (hmem : (some name, value) ∈ x.given s) : s.given? name x.node = some value.node := by
  have hentries : s.given x.node = (x.given s).map fun m => (m.1, m.2.node) := by
    cases x with
    | object members => exact memberNodes_eq_map members
    | list items =>
        rw [Source.node, itemNodes_eq_map, Schema.given, Source.given, List.zip_map_right]
        rfl
    | _ => cases hmem
  have honce := (h.namedOnce_given hnodup).map node
  have hentry : (some name, value.node) ∈ (x.given s).map fun m => (m.1, m.2.node) :=
    List.mem_map.2 ⟨_, hmem, rfl⟩
  rw [Schema.given?, hentries, lookup_eq_find?, honce.find? hentry, Option.map_some]

theorem node_get? (h : x.Distinct) (hmem : (some name, value) ∈ x.members) :
    x.node.get? name = some value.node := by
  cases x with
  | object members =>
      have honce := (h.namedOnce_members.map node).reverse
      have hentry : (some name, value.node) ∈ (members.map fun m => (m.1, m.2.node)).reverse :=
        List.mem_reverse.2 (List.mem_map.2 ⟨_, hmem, rfl⟩)
      rw [Source.node, memberNodes_eq_map, Node.get?]
      exact congrArg (Option.map Prod.snd) (honce.find? hentry)
  | _ => cases hmem

end Json.Source

end Bindery
