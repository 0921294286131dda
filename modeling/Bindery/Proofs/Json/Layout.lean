import Bindery.Proofs.Json.Spelling

/-!
# Texts over several lines

`Exact.document`: a value without fractions is read back from its text on one line, and from that
over several lines.
-/

namespace Bindery.Json

/-- Every number in the value is an integer that 64 bits hold. -/
inductive Exact : Json → Prop where
  | null : Exact .null
  | bool (b : Bool) : Exact (.bool b)
  | integer {i : Int} : FitsWord i → Exact (.integer i)
  | string (s : String) : Exact (.string s)
  | list {items : List Json} : (∀ item ∈ items, Exact item) → Exact (.list items)
  | object {members : List (String × Json)} : (∀ m ∈ members, Exact m.2) →
      Exact (.object members)

attribute [simp] Exact.string

theorem Exact.spelt {j : Json} (h : Exact j) : j.Spelt := by
  induction h with
  | null => exact .null
  | bool b => exact spelt_bool b
  | integer hi => exact spelt_integer hi
  | string s => exact spelt_string s
  | list _ ih => exact spelt_list ih
  | object _ ih => exact spelt_object ih

/-- A text of the grammar that says the value. -/
def WrittenIn (j : Json) (text : List Char) : Prop :=
  ∃ x : Source, x.node = j.node ∧ Written (.value x) text

theorem Spelt.writtenIn {j : Json} (h : j.Spelt) : j.WrittenIn j.compactText :=
  h.written

theorem blank_newline (depth : Nat) : Blank (newline depth) := by
  intro c hc
  rcases List.mem_cons.1 hc with rfl | hc
  · rfl
  · rw [List.eq_of_mem_replicate hc]
    rfl

/-! ## Containers -/

theorem written_indentedItems {depth : Nat} {after : List Char} (hafter : Blank after)
    {items : List Json} (hne : items ≠ [])
    (h : ∀ item ∈ items, item.WrittenIn (item.indentedText depth)) :
    ∃ xs, Source.itemNodes xs = itemNodes items ∧
      Written (.items xs) (indentedItems depth items ++ after) := by
  induction items with
  | nil => exact absurd rfl hne
  | cons item items ih =>
      obtain ⟨⟨x, hx, hwritten⟩, hitems⟩ := List.forall_mem_cons.1 h
      cases items with
      | nil =>
          have helement := Written.element (blank_newline depth) hwritten hafter
          refine ⟨[x], by rw [Source.itemNodes, Source.itemNodes, hx, itemNodes, itemNodes], ?_⟩
          rw [indentedItems, List.append_assoc]
          exact .lastItem helement
      | cons next items =>
          obtain ⟨xs, hxs, hrest⟩ := ih (List.cons_ne_nil next items) hitems
          have helement := Written.element (blank_newline depth) hwritten blank_nil
          refine ⟨x :: xs, by rw [Source.itemNodes, hx, hxs]; rfl, ?_⟩
          have htext := Written.item helement hrest
          simpa [indentedItems] using htext

theorem written_indentedMembers {depth : Nat} {after : List Char} (hafter : Blank after)
    {members : List (String × Json)} (hne : members ≠ [])
    (h : ∀ m ∈ members, m.2.WrittenIn (m.2.indentedText depth)) :
    ∃ ms, Source.memberNodes ms = memberNodes members ∧
      Written (.members ms) (indentedMembers depth members ++ after) := by
  have hspace : Blank [' '] := by
    intro c hc
    rw [List.mem_singleton.1 hc]
    rfl
  induction members with
  | nil => exact absurd rfl hne
  | cons m members ih =>
      obtain ⟨name, value⟩ := m
      obtain ⟨⟨x, hx, hwritten⟩, hmembers⟩ := List.forall_mem_cons.1 h
      obtain ⟨pieces, hpieces, hspelled⟩ :=
        (letters_flatMap_quotedChar name.toList).exists_spelledString
      cases members with
      | nil =>
          have helement := Written.element hspace hwritten hafter
          have htext := Written.lastMember (blank_newline depth) hpieces blank_nil helement
          rw [hspelled] at htext
          refine ⟨[(some name, x)], by simp [Source.memberNodes, memberNodes, hx], ?_⟩
          simpa [indentedMembers, quoted] using htext
      | cons next members =>
          obtain ⟨ms, hms, hrest⟩ := ih (List.cons_ne_nil next members) hmembers
          have helement := Written.element hspace hwritten blank_nil
          have htext := Written.member (blank_newline depth) hpieces blank_nil helement hrest
          rw [hspelled] at htext
          refine ⟨(some name, x) :: ms, by rw [Source.memberNodes, hx, hms]; rfl, ?_⟩
          simpa [indentedMembers, quoted] using htext

/-! ## Values -/

theorem Exact.writtenIn_indentedText {j : Json} (h : Exact j) (depth : Nat) :
    j.WrittenIn (j.indentedText depth) := by
  induction h generalizing depth with
  | null =>
      rw [indentedText]
      exact Exact.null.spelt.writtenIn
  | bool b =>
      have hscalar := (spelt_bool b).writtenIn
      cases b
      · rwa [indentedText]
      · rwa [indentedText]
  | integer hi =>
      rw [indentedText]
      exact (spelt_integer hi).writtenIn
  | string s =>
      rw [indentedText]
      exact (spelt_string s).writtenIn
  | @list items _ ih =>
      cases items with
      | nil =>
          rw [indentedText]
          exact (spelt_list (List.forall_mem_nil _)).writtenIn
      | cons item items =>
          obtain ⟨xs, hxs, htext⟩ := written_indentedItems (blank_newline depth)
            (List.cons_ne_nil item items) fun i hi => ih i hi (depth + 1)
          refine ⟨.list xs, by rw [Source.node, hxs, node], ?_⟩
          simpa [indentedText] using Written.list htext
  | @object members _ ih =>
      cases members with
      | nil =>
          rw [indentedText]
          exact (spelt_object (List.forall_mem_nil _)).writtenIn
      | cons m members =>
          obtain ⟨ms, hms, htext⟩ := written_indentedMembers (blank_newline depth)
            (List.cons_ne_nil m members) fun i hi => ih i hi (depth + 1)
          refine ⟨.object ms, by rw [Source.node, hms, node], ?_⟩
          simpa [indentedText] using Written.object htext

/-- Both texts of a value say what the value is. -/
theorem Exact.document {j : Json} (h : Exact j) :
    ∀ text ∈ [j.compact, j.indented], Json.document text = ⟨.json, j.node, true⟩ := by
  simp only [List.forall_mem_cons, List.not_mem_nil, IsEmpty.forall_iff, implies_true, and_true]
  obtain ⟨x, hx, hwritten⟩ := h.writtenIn_indentedText 0
  exact ⟨h.spelt.document, hx ▸ hwritten.document_ofList⟩

end Bindery.Json
