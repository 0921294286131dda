import Bindery.Document.Text
import Bindery.Proofs.Document.Reading
import Bindery.Proofs.Outcome

/-!
# What values were read from

`says_read`: every place of a record that was read holds what the node says of its field, or what it
held before if the node does not say anything of it.
-/

namespace Bindery

/-- A value is what a node stands for, or what it was at the start if there is no node. -/
def Says {α : Type} (stands : Node → α → Prop) (node : Option Node) (start value : α) : Prop :=
  match node with
  | some node => stands node value
  | none => value = start

theorem Document.read_eq_ok_iff {α : Type} {d : Document}
    {f : Reading → Node → Except Fault α} {value : α} :
    d.read f = .ok value ↔
      d.complete = true ∧ f (if d.format = .json then .json else .toml) d.root = .ok value := by
  rw [Document.read]
  cases hroot : f (if d.format = .json then .json else .toml) d.root with
  | error fault => simp [bind, Except.bind]
  | ok found =>
      cases d.complete <;>
        simp [bind, Except.bind, pure, Except.pure, throw, throwThe, MonadExceptOf.throw]

def Node.isNull : Node → Bool
  | .null => true
  | _ => false

/-! ## What nodes stand for -/

namespace Node

def IsText (node : Node) (value : String) : Prop := node = .string value

def IsSomeText (node : Node) (value : Option String) : Prop :=
  ∃ text, node = .string text ∧ value = some text

def IsTexts (node : Node) (values : List String) : Prop := node = .list (values.map .string)

def IsFlag (node : Node) (value : Bool) : Prop := node = .bool value

/-- A null stands for no text. -/
def IsOptionalText (node : Node) (value : Option String) : Prop :=
  (node = .null ∧ value = none) ∨ node.IsSomeText value

end Node

namespace Reading

variable {r : Reading} {node : Node}

theorem string_ok {value : String} (h : r.string node = .ok value) : node = .string value := by
  cases node <;> simp [string, throw, throwThe, MonadExceptOf.throw] at h ⊢
  exact h

theorem path_ok {value : String} (h : r.path node = .ok value) : node = .string value := by
  cases node <;> simp [path, throw, throwThe, MonadExceptOf.throw] at h ⊢
  exact h

theorem bool_ok {value : Bool} (h : r.bool node = .ok value) : node.IsFlag value := by
  cases node <;> simp [bool, throw, throwThe, MonadExceptOf.throw] at h
  simpa [Node.IsFlag] using h

theorem option_ok {read : Reading → Node → Except Fault String}
    (hread : ∀ r node value, read r node = .ok value → node = .string value)
    {value : Option String} (h : Reading.option read r node = .ok value) :
    node.IsOptionalText value := by
  by_cases hnull : node = .null
  · subst hnull
    exact .inl ⟨rfl, (Except.ok.inj h).symm⟩
  · have hsome : Reading.option read r node = some <$> read r node := by
      cases node <;> first | rfl | exact absurd rfl hnull
    rw [hsome, map_eq_ok_iff] at h
    obtain ⟨text, hok, rfl⟩ := h
    exact .inr ⟨text, hread r node text hok, rfl⟩

theorem items_ok {nodes : List Node} {values : List String}
    (h : items r.string nodes = .ok values) : nodes = values.map .string := by
  induction nodes generalizing values with
  | nil =>
      obtain rfl : [] = values := by simpa [items] using h
      rfl
  | cons node nodes ih =>
      rw [items] at h
      cases hnode : r.string node with
      | error fault => simp [hnode, bind, Except.bind] at h
      | ok value =>
          cases hnodes : items r.string nodes with
          | error fault => simp [hnode, hnodes, bind, Except.bind] at h
          | ok rest =>
              obtain rfl : value :: rest = values := by simpa [hnode, hnodes] using h
              rw [List.map_cons, string_ok hnode, ih hnodes]

theorem list_ok {values : List String} (h : Reading.list Reading.string r node = .ok values) :
    node.IsTexts values := by
  cases node with
  | list nodes => exact congrArg Node.list (items_ok h)
  | _ => cases h

/-- The last entry of a name counts. -/
theorem get?_entries {α : Type} {read : Node → Except Fault α}
    {nodes : List (Option String × Node)} {acc m : OrderedMap α}
    (h : entries read nodes acc = .ok m) (key : String) :
    Says (fun node value => ∃ a, read node = .ok a ∧ value = some a)
      ((nodes.reverse.find? (·.1 == some key)).map Prod.snd) (acc.get? key) (m.get? key) := by
  induction nodes generalizing acc with
  | nil =>
      obtain rfl : acc = m := by simpa [entries] using h
      exact rfl
  | cons e nodes ih =>
      obtain ⟨_ | name, node⟩ := e
      · cases h
      · rw [entries] at h
        cases hread : read node with
        | error fault => simp [hread, bind, Except.bind] at h
        | ok a =>
            rw [hread] at h
            have hrest := ih h
            rw [List.reverse_cons, List.find?_append]
            cases hfind : nodes.reverse.find? (·.1 == some key) with
            | some e' => simpa [hfind, Says] using hrest
            | none =>
                rw [hfind] at hrest
                have hsame : m.get? key = (acc.insert name a).get? key := hrest
                rw [hsame, OrderedMap.get?_insert]
                by_cases hkey : key = name
                · subst hkey
                  simpa [Says] using hread
                · simp [Says, hkey, Ne.symm hkey]

end Reading

namespace Schema

variable {σ α : Type}

/-- What a node says of the fields of a record: entries by their names, items by their places. -/
def given (s : Schema σ) : Node → List (Option String × Node)
  | .table entries => entries
  | .list nodes => (s.fields.map fun field => some field.name).zip nodes
  | _ => []

def given? (s : Schema σ) (name : String) (node : Node) : Option Node :=
  (s.given node).lookup (some name)

/-- Reading a field stores what its node stands for in a place, and no other field touches that. -/
structure Stores (fields : List (Field σ)) (name : String) (get : σ → α)
    (stands : Reading → Node → α → Prop) : Prop where
  stores : ∀ field ∈ fields, field.name = name → ∀ r node x y,
    field.read r node x = .ok y → stands r node (get y)
  keeps : ∀ field ∈ fields, field.name ≠ name → ∀ r node x y,
    field.read r node x = .ok y → get y = get x

namespace Stores

variable {β : Type} {fields : List (Field σ)} {field name : String} {required : Bool}
  {read : Reading → Node → Except Fault β} {set : σ → β → σ} {get : σ → α}
  {stands : Reading → Node → α → Prop}

theorem nil : Stores [] name get stands :=
  ⟨nofun, nofun⟩

/-- The first field is the one. -/
theorem this (h : ∀ r node x value, read r node = .ok value → stands r node (get (set x value)))
    (hrest : Stores fields name get stands) :
    Stores (⟨name, required, fun r node x => set x <$> read r node⟩ :: fields) name get stands where
  stores := by
    refine List.forall_mem_cons.2 ⟨fun _ r node x y hread => ?_, hrest.stores⟩
    obtain ⟨value, hok, rfl⟩ := map_eq_ok_iff.1 hread
    exact h r node x value hok
  keeps := List.forall_mem_cons.2 ⟨fun hne => absurd rfl hne, hrest.keeps⟩

/-- The first field is another one. -/
theorem other (hname : field ≠ name) (h : ∀ x value, get (set x value) = get x)
    (hrest : Stores fields name get stands) :
    Stores (⟨field, required, fun r node x => set x <$> read r node⟩ :: fields) name get
      stands where
  stores := List.forall_mem_cons.2 ⟨fun heq => absurd heq hname, hrest.stores⟩
  keeps := by
    refine List.forall_mem_cons.2 ⟨fun _ r node x y hread => ?_, hrest.keeps⟩
    obtain ⟨value, -, rfl⟩ := map_eq_ok_iff.1 hread
    exact h x value

end Stores

variable {s : Schema σ} {name : String} {get : σ → α} {stands : Reading → Node → α → Prop}
  {r : Reading}

theorem named?_eq_some {field : Field σ} (h : s.named? name = some field) :
    field ∈ s.fields ∧ field.name = name :=
  ⟨List.mem_of_find?_eq_some h, by simpa using List.find?_some h⟩

theorem named?_eq_none (h : s.named? name = none) : name ∉ s.fields.map Field.name := by
  rw [named?, List.find?_eq_none] at h
  intro hmem
  obtain ⟨field, hfield, rfl⟩ := List.mem_map.1 hmem
  exact h field hfield (by simp)

theorem lookup_cons_some (name key : String) (node : Node) (entries : List (Option String × Node)) :
    ((some name, node) :: entries).lookup (some key) =
      if key = name then some node else entries.lookup (some key) := by
  rw [List.lookup_cons]
  by_cases h : key = name
  · simp [h]
  · have hne : (some key == some name) = false := by simpa using h
    rw [hne, if_neg h]

theorem says_readEntries (hstores : Stores s.fields name get stands)
    (hname : name ∈ s.fields.map Field.name) {entries : List (Option String × Node)}
    {seen seen' : List String} {x y : σ} (h : s.readEntries r entries seen x = .ok (seen', y)) :
    (name ∈ seen → get y = get x) ∧
      (name ∉ seen → Says (stands r) (entries.lookup (some name)) (get x) (get y)) := by
  induction entries generalizing seen x with
  | nil =>
      obtain ⟨rfl, rfl⟩ : seen = seen' ∧ x = y := by simpa [readEntries] using h
      exact ⟨fun _ => rfl, fun _ => rfl⟩
  | cons e entries ih =>
      obtain ⟨_ | key, node⟩ := e
      · cases h
      · rw [readEntries] at h
        rw [lookup_cons_some]
        cases hfield : s.named? key with
        | none =>
            have hne : name ≠ key := by
              rintro rfl
              exact named?_eq_none hfield hname
            rw [hfield] at h
            simp only at h
            cases hskip : r.skip node with
            | error fault => simp [hskip, bind, Except.bind] at h
            | ok =>
                rw [hskip] at h
                rw [if_neg hne]
                exact ih h
        | some field =>
            obtain ⟨hmem, hkey⟩ := named?_eq_some hfield
            rw [hfield] at h
            simp only at h
            split_ifs at h with hseen
            cases hread : field.read r node x with
            | error fault => simp [hread, bind, Except.bind] at h
            | ok z =>
                rw [hread] at h
                obtain ⟨hknown, hfresh⟩ := ih h
                by_cases hne : name = key
                · subst hne
                  refine ⟨fun hname => absurd (by simpa using hname) hseen, fun _ => ?_⟩
                  rw [if_pos rfl, Says, hknown List.mem_cons_self]
                  exact hstores.stores field hmem hkey r node x z hread
                · have hkept : get z = get x :=
                    hstores.keeps field hmem (fun heq => hne (heq.symm.trans hkey)) r node x z hread
                  rw [if_neg hne, ← hkept]
                  refine ⟨fun hname => hknown (List.mem_cons_of_mem key hname), fun hname => ?_⟩
                  exact hfresh fun hcons => (List.mem_cons.1 hcons).elim hne hname

theorem lookup_zip_eq_none {fields : List (Field σ)} (h : name ∉ fields.map Field.name)
    (nodes : List Node) :
    ((fields.map fun field => some field.name).zip nodes).lookup (some name) = none := by
  rw [List.lookup_eq_none_iff]
  intro e he
  obtain ⟨field, hfield, hname⟩ := List.mem_map.1 (List.of_mem_zip he).1
  rw [← hname, bne_iff_ne]
  rintro heq
  exact h (Option.some.inj heq ▸ List.mem_map_of_mem hfield)

theorem says_readItems {fields : List (Field σ)} (hstores : Stores fields name get stands)
    (hnodup : (fields.map Field.name).Nodup) {nodes : List Node} {index : Nat} {x y : σ}
    (h : s.readItems r index fields nodes x = .ok y) :
    Says (stands r) (((fields.map fun field => some field.name).zip nodes).lookup (some name))
      (get x) (get y) := by
  induction fields generalizing nodes index x with
  | nil =>
      have hsame : x = y := by
        cases nodes with
        | nil => simpa [readItems] using h
        | cons node nodes =>
            rw [readItems] at h
            · split_ifs at h
              exact Except.ok.inj h
            · exact List.cons_ne_nil node nodes
      rw [List.map_nil, List.zip_nil_left, List.lookup_nil, Says, hsame]
  | cons field fields ih =>
      obtain ⟨hfield, hfields⟩ := List.nodup_cons.1 hnodup
      have hrest : Stores fields name get stands :=
        ⟨fun f hf => hstores.stores f (List.mem_cons_of_mem field hf),
          fun f hf => hstores.keeps f (List.mem_cons_of_mem field hf)⟩
      cases nodes with
      | nil =>
          rw [readItems] at h
          split_ifs at h
          simpa using ih hrest hfields h
      | cons node nodes =>
          rw [readItems] at h
          cases hread : field.read r node x with
          | error fault => simp [hread, bind, Except.bind] at h
          | ok z =>
              rw [hread] at h
              have hsays := ih hrest hfields h
              rw [List.map_cons, List.zip_cons_cons, lookup_cons_some]
              by_cases hname : name = field.name
              · subst hname
                have hnone := lookup_zip_eq_none hfield nodes
                rw [hnone, Says] at hsays
                rw [if_pos rfl, Says, hsays]
                exact hstores.stores field List.mem_cons_self rfl r node x z hread
              · have hkept : get z = get x :=
                  hstores.keeps field List.mem_cons_self (Ne.symm hname) r node x z hread
                rwa [if_neg hname, ← hkept]

/-- In whatever form the record is written. -/
theorem says_read (hstores : Stores s.fields name get stands)
    (hname : name ∈ s.fields.map Field.name) (hnodup : (s.fields.map Field.name).Nodup)
    {node : Node} {start x : σ} (h : s.read start r node = .ok x) :
    Says (stands r.enter) (s.given? name node) (get start) (get x) := by
  cases node with
  | table entries =>
      rw [read] at h
      cases hentries : s.readEntries r.enter entries [] start with
      | error fault => simp [hentries, bind, Except.bind] at h
      | ok result =>
          obtain ⟨seen, y⟩ := result
          obtain rfl : y = x := by
            rw [hentries, ok_bind] at h
            simp only at h
            cases hmissing : s.missing? seen with
            | none => simpa [hmissing] using h
            | some name => simp [hmissing, throw, throwThe, MonadExceptOf.throw] at h
          exact (says_readEntries hstores hname hentries).2 List.not_mem_nil
  | list nodes => exact says_readItems hstores hnodup h
  | _ => cases h

end Schema

end Bindery
