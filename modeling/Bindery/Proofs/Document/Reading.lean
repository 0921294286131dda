import Bindery.Document.Tagged
import Bindery.Proofs.OrderedMap

/-!
# Reading what was written

How lists, maps and tagged tables are read whose parts can be read.
-/

namespace Bindery

@[simp] theorem ok_bind {α β : Type} (a : α) (f : α → Except Fault β) :
    (Except.ok a >>= f) = f a := rfl

@[simp] theorem pure_eq_ok {α : Type} (a : α) : (pure a : Except Fault α) = .ok a := rfl

@[simp] theorem map_ok {α β : Type} (f : α → β) (a : α) :
    f <$> (Except.ok a : Except Fault α) = .ok (f a) := rfl

namespace Node

theorem height_le_itemsHeight {node : Node} {nodes : List Node} (h : node ∈ nodes) :
    node.height ≤ itemsHeight nodes := by
  induction nodes with
  | nil => cases h
  | cons first nodes ih =>
      rw [itemsHeight]
      rcases List.mem_cons.1 h with rfl | h
      · exact Nat.le_max_left ..
      · exact Nat.le_trans (ih h) (Nat.le_max_right ..)

theorem height_le_entriesHeight {e : Option String × Node} {entries : List (Option String × Node)}
    (h : e ∈ entries) : e.2.height ≤ entriesHeight entries := by
  induction entries with
  | nil => cases h
  | cons first entries ih =>
      rw [entriesHeight]
      rcases List.mem_cons.1 h with rfl | h
      · exact Nat.le_max_left ..
      · exact Nat.le_trans (ih h) (Nat.le_max_right ..)

theorem entriesReadable_iff {entries : List (Option String × Node)} :
    entriesReadable entries = true ↔
      ∀ e ∈ entries, e.1.isSome = true ∧ e.2.readable = true := by
  induction entries with
  | nil => simp [entriesReadable]
  | cons e entries ih => simp [entriesReadable, ih]

end Node

namespace Reading

theorem items_map {α : Type} {read : Node → Except Fault α} {node : α → Node} {as : List α}
    (h : ∀ a ∈ as, read (node a) = .ok a) : items read (as.map node) = .ok as := by
  induction as with
  | nil => rfl
  | cons a as ih =>
      obtain ⟨ha, has⟩ := List.forall_mem_cons.1 h
      simp [items, ha, ih has]

theorem list_map {α : Type} {read : Reading → Node → Except Fault α} {r : Reading}
    {node : α → Node} {as : List α} (h : ∀ a ∈ as, read r.enter (node a) = .ok a) :
    Reading.list read r (.list (as.map node)) = .ok as :=
  items_map h

theorem entries_map {α : Type} {read : Node → Except Fault α} {node : α → Node}
    {es : List (String × α)} {acc m : OrderedMap α} (h : ∀ e ∈ es, read (node e.2) = .ok e.2)
    (hm : m.entries = acc.entries ++ es) :
    entries read (es.map fun e => (some e.1, node e.2)) acc = .ok m := by
  induction es generalizing acc with
  | nil =>
      obtain rfl : m = acc := OrderedMap.ext (by simpa using hm)
      rfl
  | cons e es ih =>
      obtain ⟨he, hes⟩ := List.forall_mem_cons.1 h
      have hfresh : e.1 ∉ acc.keys := by
        have hnodup := m.nodup
        rw [hm, List.map_append, List.nodup_append] at hnodup
        intro hmem
        exact hnodup.2.2 e.1 hmem e.1 (by simp) rfl
      have hinsert := @ih (acc.insert e.1 e.2) hes
        (by rw [OrderedMap.entries_insert_of_not_mem hfresh, hm, List.append_assoc]; rfl)
      simp [entries, he, hinsert]

theorem map_table {α : Type} {read : Reading → Node → Except Fault α} {r : Reading}
    (node : α → Node) {m : OrderedMap α}
    (h : ∀ e ∈ m.entries, read r.enter (node e.2) = .ok e.2) :
    Reading.map read r (.table (m.entries.map fun e => (some e.1, node e.2))) = .ok m :=
  entries_map h rfl

/-- The value may be taken in: that was done before, or it does not open too many containers. -/
def HasRoom (r : Reading) (node : Node) : Prop :=
  r.held = true ∨ node.height ≤ r.room

theorem HasRoom.hold {r : Reading} {node : Node} (h : r.HasRoom node)
    (hreadable : node.readable = true) : r.hold node = .ok () := by
  rw [Reading.hold]
  rcases h with hheld | hroom
  · simp [hheld]
  · simp [hreadable, hroom]

theorem HasRoom.entry {r : Reading} {e : Option String × Node}
    {entries : List (Option String × Node)} (h : r.HasRoom (.table entries)) (he : e ∈ entries) :
    r.enter.HasRoom e.2 := by
  refine h.imp_right fun hroom => ?_
  have hheight := Node.height_le_entriesHeight he
  rw [Node.height] at hroom
  simp only [Reading.enter]
  omega

theorem HasRoom.entries {r : Reading} {entries : List (Option String × Node)}
    (h : r.HasRoom (.table entries)) : ∀ e ∈ entries, r.enter.HasRoom e.2 :=
  fun _ he => h.entry he

theorem HasRoom.item {r : Reading} {node : Node} {nodes : List Node} (h : r.HasRoom (.list nodes))
    (hnode : node ∈ nodes) : r.enter.HasRoom node := by
  refine h.imp_right fun hroom => ?_
  have hheight := Node.height_le_itemsHeight hnode
  rw [Node.height] at hroom
  simp only [Reading.enter]
  omega

section

variable {tag kind : String} {names : List String} {r : Reading} {i : Nat}
  {entries : List (Option String × Node)}

theorem taggedEntries_of_some (held : List (Option String × Node))
    (hnames : ∀ e ∈ entries, e.1.isSome = true ∧ e.1 ≠ some tag)
    (hhold : ∀ e ∈ entries, r.hold e.2 = .ok ()) :
    taggedEntries tag names r entries (some i) held = .ok (i, held.reverse ++ entries) := by
  induction entries generalizing held with
  | nil => simp [taggedEntries]
  | cons e entries ih =>
      obtain ⟨⟨hsome, htag⟩, hrest⟩ := List.forall_mem_cons.1 hnames
      obtain ⟨he, hholds⟩ := List.forall_mem_cons.1 hhold
      obtain ⟨_ | name, node⟩ := e
      · cases hsome
      · have hne : name ≠ tag := fun heq => htag (congrArg some heq)
        simp [taggedEntries, hne, he, ih _ hrest hholds]

/-- A table whose first entry is the tag is read as the variant that the tag names. -/
theorem tagged_table {α : Type} (title : String) (read : Nat → Reading → Node → Except Fault α)
    (hkind : names.findIdx? (· == kind) = some i) (htag : ∀ e ∈ entries, e.1 ≠ some tag)
    (hreadable : (Node.table ((some tag, .string kind) :: entries)).readable = true)
    (hroom : r.HasRoom (.table ((some tag, .string kind) :: entries))) :
    r.tagged title tag names read (.table ((some tag, .string kind) :: entries)) =
      read i r.afterHold (.table entries) := by
  rw [Node.readable, Node.entriesReadable_iff] at hreadable
  have hentries := (List.forall_mem_cons.1 hreadable).2
  have hnames : ∀ e ∈ entries, e.1.isSome = true ∧ e.1 ≠ some tag := fun e he =>
    ⟨(hentries e he).1, htag e he⟩
  have hhold : ∀ e ∈ entries, r.enter.hold e.2 = .ok () := fun e he =>
    (hroom.entry (List.mem_cons_of_mem _ he)).hold (hentries e he).2
  simp [tagged, taggedEntries, variant, hkind, taggedEntries_of_some [] hnames hhold]

end

end Reading

end Bindery
