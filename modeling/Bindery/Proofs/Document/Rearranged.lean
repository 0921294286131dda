import Bindery.Proofs.Document.Reading

/-!
# Documents with their members in another order

In an object that stands for a record, members may change places, and such as nobody asks for may
be added; their values may change likewise. A rearranged node opens as many containers as before,
and can be read as a whole if it could be before.
-/

namespace Bindery

namespace Node

/-- A null, a truth value or a text. -/
inductive IsPlain : Node → Prop where
  | null : IsPlain .null
  | bool (value : Bool) : IsPlain (.bool value)
  | string (value : String) : IsPlain (.string value)

/-- The parts of a record, each with what its value may become. -/
abbrev Parts := List (String × (Node → Node → Prop))

/-- What the value of a member may become. Those that are no parts stay as they are. -/
inductive Parts.Allows (parts : Parts) : Option String → Node → Node → Prop where
  | same {name : Option String} {node : Node} : Allows parts name node node
  | part {name : String} {change : Node → Node → Prop} {node node' : Node} :
      parts.lookup name = some change → change node node' → Allows parts (some name) node node'

/-- The members of a record after some have changed places, others their values, and unknown ones
have been added. -/
inductive Shuffled (parts : Parts) :
    List (Option String × Node) → List (Option String × Node) → Prop where
  | nil : Shuffled parts [] []
  | cons {name : Option String} {node node' : Node}
      {entries entries' : List (Option String × Node)} :
      parts.Allows name node node' → Shuffled parts entries entries' →
      Shuffled parts ((name, node) :: entries) ((name, node') :: entries')
  | swap (e f : Option String × Node) (entries : List (Option String × Node)) :
      Shuffled parts (f :: e :: entries) (e :: f :: entries)
  | extra {name : String} {node : Node} (entries : List (Option String × Node)) :
      parts.lookup name = none → node.IsPlain →
      Shuffled parts entries ((some name, node) :: entries)
  | trans {first second third : List (Option String × Node)} :
      Shuffled parts first second → Shuffled parts second third → Shuffled parts first third

/-- The parts of a record that is written as a list. They stay in their places. -/
inductive ItemsChanged : Parts → List Node → List Node → Prop where
  | refl (parts : Parts) (nodes : List Node) : ItemsChanged parts nodes nodes
  | cons {part : String × (Node → Node → Prop)} {parts : Parts} {node node' : Node}
      {nodes nodes' : List Node} :
      part.2 node node' → ItemsChanged parts nodes nodes' →
      ItemsChanged (part :: parts) (node :: nodes) (node' :: nodes')

/-- A record, rearranged. -/
inductive RecordOf (parts : Parts) : Node → Node → Prop where
  | refl (node : Node) : RecordOf parts node node
  | table {entries entries' : List (Option String × Node)} :
      Shuffled parts entries entries' → RecordOf parts (.table entries) (.table entries')
  | list {nodes nodes' : List Node} :
      ItemsChanged parts nodes nodes' → RecordOf parts (.list nodes) (.list nodes')

/-- A list, where only the items change. -/
inductive ListOf (change : Node → Node → Prop) : Node → Node → Prop where
  | refl (node : Node) : ListOf change node node
  | list {nodes nodes' : List Node} :
      List.Forall₂ change nodes nodes' → ListOf change (.list nodes) (.list nodes')

/-- A map from names, where only the values change. -/
inductive MapOf (change : Node → Node → Prop) : Node → Node → Prop where
  | refl (node : Node) : MapOf change node node
  | table {entries entries' : List (Option String × Node)} :
      List.Forall₂ (fun e e' => e'.1 = e.1 ∧ change e.2 e'.2) entries entries' →
      MapOf change (.table entries) (.table entries')

/-- The node picks the variant of that place, by its name or by the place itself. -/
def Picks (names : List String) (i : Nat) : Node → Prop
  | .string name => names.findIdx? (· == name) = some i
  | .integer n => n = i
  | _ => False

/-- A value whose variant is named by one of its members, or by its first item. The parts are those
of the variant, and the tag may stand anywhere among them. -/
inductive VariantOf (tag : String) (names : List String) (parts : Nat → Parts) :
    Node → Node → Prop where
  | refl (node : Node) : VariantOf tag names parts node node
  | table {i : Nat} {kind : Node} {entries entries' : List (Option String × Node)} :
      (some tag, kind) ∈ entries → kind.Picks names i →
      Shuffled ((tag, Eq) :: parts i) entries entries' →
      VariantOf tag names parts (.table entries) (.table entries')
  | list {i : Nat} {kind : Node} {nodes nodes' : List Node} :
      kind.Picks names i → ItemsChanged (parts i) nodes nodes' →
      VariantOf tag names parts (.list (kind :: nodes)) (.list (kind :: nodes'))

/-! ## Members in another order -/

section

variable {parts : Parts}

theorem Shuffled.refl (entries : List (Option String × Node)) : Shuffled parts entries entries := by
  induction entries with
  | nil => exact .nil
  | cons e entries ih => exact .cons .same ih

theorem Shuffled.of_perm {entries entries' : List (Option String × Node)}
    (h : entries.Perm entries') : Shuffled parts entries entries' := by
  induction h with
  | nil => exact .nil
  | cons e _ ih => exact .cons .same ih
  | swap e f entries => exact .swap e f entries
  | trans _ _ ih ih' => exact .trans ih ih'

theorem Shuffled.of_extras {extras : List (Option String × Node)}
    (h : ∀ e ∈ extras, ∃ name, e.1 = some name ∧ parts.lookup name = none ∧ e.2.IsPlain)
    (entries : List (Option String × Node)) : Shuffled parts entries (extras ++ entries) := by
  induction extras with
  | nil => exact .refl entries
  | cons e extras ih =>
      obtain ⟨⟨name, hname, hlookup, hplain⟩, hrest⟩ := List.forall_mem_cons.1 h
      obtain ⟨_, node⟩ := e
      subst hname
      exact .trans (ih hrest) (.extra _ hlookup hplain)

theorem Shuffled.of_forall₂ {entries entries' : List (Option String × Node)}
    (h : List.Forall₂ (fun e e' => e'.1 = e.1 ∧ parts.Allows e.1 e.2 e'.2) entries entries') :
    Shuffled parts entries entries' := by
  induction h with
  | nil => exact .nil
  | @cons e e' _ _ hchange _ ih =>
      obtain ⟨name, node'⟩ := e'
      obtain ⟨rfl, hallows⟩ := hchange
      exact .cons hallows ih

/-- Values change, then unknown members are added, then all are put in another order. -/
theorem Shuffled.intro {entries changed extras entries' : List (Option String × Node)}
    (hchanged :
      List.Forall₂ (fun e e' => e'.1 = e.1 ∧ parts.Allows e.1 e.2 e'.2) entries changed)
    (hextras : ∀ e ∈ extras, ∃ name, e.1 = some name ∧ parts.lookup name = none ∧ e.2.IsPlain)
    (hperm : (extras ++ changed).Perm entries') : Shuffled parts entries entries' :=
  .trans (.of_forall₂ hchanged) (.trans (.of_extras hextras changed) (.of_perm hperm))

end

/-! ## What is kept -/

/-- A change that keeps the height of a node, and that it can be read as a whole. -/
structure Keeps (change : Node → Node → Prop) : Prop where
  height : ∀ {node node'}, change node node' → node'.height = node.height
  readable : ∀ {node node'}, change node node' → node.readable = true → node'.readable = true

theorem IsPlain.height {node : Node} (h : node.IsPlain) : node.height = 0 := by
  cases h <;> rfl

theorem IsPlain.readable {node : Node} (h : node.IsPlain) : node.readable = true := by
  cases h <;> rfl

theorem IsPlain.wellFormed {node : Node} (h : node.IsPlain) : node.wellFormed = true := by
  cases h <;> rfl

theorem keeps_eq : Keeps Eq where
  height h := h ▸ rfl
  readable h hreadable := h ▸ hreadable

section

variable {parts : Parts} (h : ∀ part ∈ parts, Keeps part.2)

include h

theorem Parts.keeps_allows (name : Option String) : Keeps (parts.Allows name) where
  height := by
    rintro _ _ (_ | ⟨hlookup, hchange⟩)
    · rfl
    · exact (h _ (mem_of_lookup_eq_some hlookup)).height hchange
  readable := by
    rintro _ _ (_ | ⟨hlookup, hchange⟩) hreadable
    · exact hreadable
    · exact (h _ (mem_of_lookup_eq_some hlookup)).readable hchange hreadable

theorem Shuffled.height {entries entries' : List (Option String × Node)}
    (hshuffled : Shuffled parts entries entries') :
    entriesHeight entries' = entriesHeight entries := by
  induction hshuffled with
  | nil => rfl
  | @cons name node node' entries entries' hchange _ ih =>
      rw [entriesHeight, entriesHeight, (Parts.keeps_allows h name).height hchange, ih]
  | swap e f entries => simp only [entriesHeight, Nat.max_left_comm]
  | extra entries _ hplain => simp [entriesHeight, hplain.height]
  | trans _ _ ih ih' => exact ih'.trans ih

theorem Shuffled.readable {entries entries' : List (Option String × Node)}
    (hshuffled : Shuffled parts entries entries') (hreadable : entriesReadable entries = true) :
    entriesReadable entries' = true := by
  induction hshuffled with
  | nil => exact hreadable
  | @cons name node node' entries entries' hchange _ ih =>
      simp only [entriesReadable, Bool.and_eq_true] at hreadable ⊢
      exact ⟨⟨hreadable.1.1, (Parts.keeps_allows h name).readable hchange hreadable.1.2⟩,
        ih hreadable.2⟩
  | swap e f entries =>
      simp only [entriesReadable, Bool.and_eq_true] at hreadable ⊢
      exact ⟨hreadable.2.1, hreadable.1, hreadable.2.2⟩
  | extra entries _ hplain => simp [entriesReadable, hplain.readable, hreadable]
  | trans _ _ ih ih' => exact ih' (ih hreadable)

end

theorem itemsHeight_of_forall₂ {change : Node → Node → Prop} (h : Keeps change)
    {nodes nodes' : List Node} (hitems : List.Forall₂ change nodes nodes') :
    itemsHeight nodes' = itemsHeight nodes := by
  induction hitems with
  | nil => rfl
  | cons hchange _ ih => rw [itemsHeight, itemsHeight, h.height hchange, ih]

theorem itemsReadable_of_forall₂ {change : Node → Node → Prop} (h : Keeps change)
    {nodes nodes' : List Node} (hitems : List.Forall₂ change nodes nodes')
    (hreadable : itemsReadable nodes = true) : itemsReadable nodes' = true := by
  induction hitems with
  | nil => rfl
  | cons hchange _ ih =>
      simp only [itemsReadable, Bool.and_eq_true] at hreadable ⊢
      exact ⟨h.readable hchange hreadable.1, ih hreadable.2⟩

theorem entriesHeight_of_forall₂ {change : Node → Node → Prop} (h : Keeps change)
    {entries entries' : List (Option String × Node)}
    (hentries : List.Forall₂ (fun e e' => e'.1 = e.1 ∧ change e.2 e'.2) entries entries') :
    entriesHeight entries' = entriesHeight entries := by
  induction hentries with
  | nil => rfl
  | cons hchange _ ih => rw [entriesHeight, entriesHeight, h.height hchange.2, ih]

theorem entriesReadable_of_forall₂ {change : Node → Node → Prop} (h : Keeps change)
    {entries entries' : List (Option String × Node)}
    (hentries : List.Forall₂ (fun e e' => e'.1 = e.1 ∧ change e.2 e'.2) entries entries')
    (hreadable : entriesReadable entries = true) : entriesReadable entries' = true := by
  induction hentries with
  | nil => rfl
  | cons hchange _ ih =>
      simp only [entriesReadable, Bool.and_eq_true] at hreadable ⊢
      exact ⟨⟨hchange.1 ▸ hreadable.1.1, h.readable hchange.2 hreadable.1.2⟩, ih hreadable.2⟩

theorem ItemsChanged.height {parts : Parts} {nodes nodes' : List Node}
    (hitems : ItemsChanged parts nodes nodes') (h : ∀ part ∈ parts, Keeps part.2) :
    itemsHeight nodes' = itemsHeight nodes := by
  induction hitems with
  | refl => rfl
  | cons hchange _ ih =>
      obtain ⟨hpart, hparts⟩ := List.forall_mem_cons.1 h
      rw [itemsHeight, itemsHeight, hpart.height hchange, ih hparts]

theorem ItemsChanged.readable {parts : Parts} {nodes nodes' : List Node}
    (hitems : ItemsChanged parts nodes nodes') (h : ∀ part ∈ parts, Keeps part.2)
    (hreadable : itemsReadable nodes = true) : itemsReadable nodes' = true := by
  induction hitems with
  | refl => exact hreadable
  | cons hchange _ ih =>
      obtain ⟨hpart, hparts⟩ := List.forall_mem_cons.1 h
      simp only [itemsReadable, Bool.and_eq_true] at hreadable ⊢
      exact ⟨hpart.readable hchange hreadable.1, ih hparts hreadable.2⟩

theorem Keeps.listOf {change : Node → Node → Prop} (h : Keeps change) : Keeps (ListOf change) where
  height := by
    rintro _ _ (_ | hitems)
    · rfl
    · rw [Node.height, Node.height, itemsHeight_of_forall₂ h hitems]
  readable := by
    rintro _ _ (_ | hitems) hreadable
    · exact hreadable
    · rw [Node.readable] at hreadable ⊢
      exact itemsReadable_of_forall₂ h hitems hreadable

theorem Keeps.mapOf {change : Node → Node → Prop} (h : Keeps change) : Keeps (MapOf change) where
  height := by
    rintro _ _ (_ | hentries)
    · rfl
    · rw [Node.height, Node.height, entriesHeight_of_forall₂ h hentries]
  readable := by
    rintro _ _ (_ | hentries) hreadable
    · exact hreadable
    · rw [Node.readable] at hreadable ⊢
      exact entriesReadable_of_forall₂ h hentries hreadable

theorem Keeps.recordOf {parts : Parts} (h : ∀ part ∈ parts, Keeps part.2) :
    Keeps (RecordOf parts) where
  height := by
    rintro _ _ (_ | hshuffled | hitems)
    · rfl
    · rw [Node.height, Node.height, hshuffled.height h]
    · rw [Node.height, Node.height, hitems.height h]
  readable := by
    rintro _ _ (_ | hshuffled | hitems) hreadable
    · exact hreadable
    · rw [Node.readable] at hreadable ⊢
      exact hshuffled.readable h hreadable
    · rw [Node.readable] at hreadable ⊢
      exact hitems.readable h hreadable

theorem Keeps.variantOf {tag : String} {names : List String} {parts : Nat → Parts}
    (h : ∀ i, ∀ part ∈ parts i, Keeps part.2) : Keeps (VariantOf tag names parts) where
  height := by
    rintro _ _ (_ | @⟨i, _, _, _, _, _, hshuffled⟩ | @⟨i, _, _, _, _, hitems⟩)
    · rfl
    · rw [Node.height, Node.height,
        hshuffled.height (List.forall_mem_cons.2 ⟨keeps_eq, h i⟩)]
    · rw [Node.height, Node.height, itemsHeight, itemsHeight, hitems.height (h i)]
  readable := by
    rintro _ _ (_ | @⟨i, _, _, _, _, _, hshuffled⟩ | @⟨i, _, _, _, _, hitems⟩) hreadable
    · exact hreadable
    · rw [Node.readable] at hreadable ⊢
      exact hshuffled.readable (List.forall_mem_cons.2 ⟨keeps_eq, h i⟩) hreadable
    · simp only [Node.readable, itemsReadable, Bool.and_eq_true] at hreadable ⊢
      exact ⟨hreadable.1, hitems.readable (h i) hreadable.2⟩

end Node

end Bindery
