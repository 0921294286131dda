import Bindery.Document.Tagged
import Bindery.Proofs.Document.Rearranged
import Bindery.Proofs.Document.Schema
import Mathlib.Data.List.Pairwise

/-!
# Reading in another order

Readers that give the same value for a rearranged node. `Schema.respects_read`: a record is read so
if it does not matter in which order two of its fields are stored. `Reading.respects_tagged`: so is
a value of several variants, wherever its tag stands.
-/

namespace Bindery

open Node

variable {α σ : Type}

/-- What is read from a node, that is read from it after the change. -/
def Reading.Respects (change : Node → Node → Prop) (read : Reading → Node → Except Fault α) :
    Prop :=
  ∀ ⦃r node node' a⦄, change node node' → read r node = .ok a → read r node' = .ok a

namespace Reading

variable {change : Node → Node → Prop} {read : Reading → Node → Except Fault α} {r : Reading}
  {node : Node} {nodes nodes' : List Node} {es es' : List (Option String × Node)}

theorem respects_eq (read : Reading → Node → Except Fault α) : Respects Eq read := by
  rintro r node _ a rfl h
  exact h

theorem Respects.map {β : Type} (h : Respects change read) (f : α → β) :
    Respects change fun r node => (read r node).map f := by
  intro r node node' b hchange hread
  obtain ⟨a, ha, rfl⟩ := map_eq_ok_iff.1 hread
  exact map_eq_ok_iff.2 ⟨a, h hchange ha, rfl⟩

/-! ## Lists and maps -/

theorem items_cons_eq_ok_iff {read : Node → Except Fault α} {as : List α} :
    items read (node :: nodes) = .ok as ↔
      ∃ first rest, read node = .ok first ∧ items read nodes = .ok rest ∧ first :: rest = as := by
  simp [items, bind_eq_ok_iff]

theorem Respects.items (h : Respects change read) (hnodes : List.Forall₂ change nodes nodes')
    {as : List α} (hread : items (read r) nodes = .ok as) : items (read r) nodes' = .ok as := by
  induction hnodes generalizing as with
  | nil => exact hread
  | cons hchange _ ih =>
      obtain ⟨first, rest, hfirst, hrest, rfl⟩ := items_cons_eq_ok_iff.1 hread
      exact items_cons_eq_ok_iff.2 ⟨first, rest, h hchange hfirst, ih hrest, rfl⟩

theorem Respects.list (h : Respects change read) : Respects (ListOf change) (list read) := by
  rintro r _ _ as (_ | hnodes) hread
  · exact hread
  · exact h.items hnodes hread

theorem entries_cons_eq_ok_iff {read : Node → Except Fault α} {name : Option String}
    {acc m : OrderedMap α} :
    entries read ((name, node) :: es) acc = .ok m ↔
      ∃ key a, name = some key ∧ read node = .ok a ∧
        entries read es (acc.insert key a) = .ok m := by
  cases name with
  | none => simp [entries]
  | some key => simp [entries, bind_eq_ok_iff]

theorem Respects.entries (h : Respects change read)
    (hentries : List.Forall₂ (fun e e' => e'.1 = e.1 ∧ change e.2 e'.2) es es')
    {acc m : OrderedMap α} (hread : entries (read r) es acc = .ok m) :
    entries (read r) es' acc = .ok m := by
  induction hentries generalizing acc with
  | nil => exact hread
  | @cons e e' _ _ hchange _ ih =>
      obtain ⟨key, a, hkey, ha, hrest⟩ := entries_cons_eq_ok_iff.1 hread
      exact entries_cons_eq_ok_iff.2 ⟨key, a, hchange.1.trans hkey, h hchange.2 ha, ih hrest⟩

theorem Respects.mapOf (h : Respects change read) : Respects (MapOf change) (Reading.map read) := by
  rintro r _ _ m (_ | hentries) hread
  · exact hread
  · exact h.entries hentries hread

end Reading

/-! ## Records -/

namespace Schema

open Reading

/-- The field is that part, and reads the same if the part changes. -/
structure Field.Follows (field : Field σ) (part : String × (Node → Node → Prop)) : Prop where
  name : field.name = part.1
  respects : ∀ ⦃r node node' x y⦄, part.2 node node' → field.read r node x = .ok y →
    field.read r node' x = .ok y

/-- It does not matter which of the two fields is read first. -/
def Field.Commutes (f g : Field σ) : Prop :=
  ∀ r node node' x y, f.read r node x >>= g.read r node' = .ok y ↔
    g.read r node' x >>= f.read r node = .ok y

/-- Every two fields may be read in either order. -/
def Independent (s : Schema σ) : Prop := s.fields.Pairwise Field.Commutes

theorem Field.Follows.of {name : String} {required : Bool} {read : Reading → Node → Except Fault α}
    {set : σ → α → σ} {change : Node → Node → Prop} (h : Respects change read) :
    Follows ⟨name, required, fun r node x => set x <$> read r node⟩ (name, change) where
  name := rfl
  respects := by
    intro r node node' x y hchange hread
    obtain ⟨a, ha, rfl⟩ := map_eq_ok_iff.1 hread
    exact map_eq_ok_iff.2 ⟨a, h hchange ha, rfl⟩

/-- The part stays as it is. -/
theorem Field.Follows.same {name : String} {required : Bool}
    {read : Reading → Node → Except Fault α} {set : σ → α → σ} :
    Follows ⟨name, required, fun r node x => set x <$> read r node⟩ (name, Eq) :=
  .of (respects_eq read)

@[simp] theorem Field.commutes_of_set {β : Type} {name name' : String} {required required' : Bool}
    {read : Reading → Node → Except Fault α} {read' : Reading → Node → Except Fault β}
    {set : σ → α → σ} {set' : σ → β → σ} (h : ∀ x a b, set' (set x a) b = set (set' x b) a) :
    Commutes ⟨name, required, fun r node x => set x <$> read r node⟩
      ⟨name', required', fun r node x => set' x <$> read' r node⟩ := by
  intro r node node' x y
  simp only [bind_eq_ok_iff, map_eq_ok_iff]
  constructor
  · rintro ⟨_, ⟨a, ha, rfl⟩, b, hb, rfl⟩
    exact ⟨_, ⟨b, hb, rfl⟩, a, ha, (h x a b).symm⟩
  · rintro ⟨_, ⟨b, hb, rfl⟩, a, ha, rfl⟩
    exact ⟨_, ⟨a, ha, rfl⟩, b, hb, h x a b⟩

instance : Std.Symm (@Field.Commutes σ) where
  symm _ _ h := fun r node node' x y => (h r node' node x y).symm

variable {s : Schema σ} {r : Reading} {parts : Parts}
  {entries entries' : List (Option String × Node)} {seen seen' : List String} {x y : σ}

theorem Independent.commutes (h : s.Independent) {f g : Field σ} (hf : f ∈ s.fields)
    (hg : g ∈ s.fields) (hne : f.name ≠ g.name) : f.Commutes g :=
  List.Pairwise.forall h hf hg fun heq => hne (heq ▸ rfl)

/-- A name is that of a field and of its part, or of none. -/
theorem named?_of_forall₂ (h : List.Forall₂ Field.Follows s.fields parts) (name : String) :
    (s.named? name = none ∧ parts.lookup name = none) ∨
      ∃ field change, s.named? name = some field ∧ parts.lookup name = some change ∧
        field.Follows (name, change) := by
  rw [named?]
  generalize s.fields = fields at h ⊢
  induction h with
  | nil => exact .inl ⟨rfl, rfl⟩
  | @cons field part fields parts hfield _ ih =>
      obtain ⟨key, change⟩ := part
      obtain rfl : field.name = key := hfield.name
      rw [lookup_cons_ite]
      by_cases hname : name = field.name
      · subst hname
        exact .inr ⟨field, change, by simp, if_pos rfl, hfield⟩
      · have hne : (field.name == name) = false := by simpa using Ne.symm hname
        rw [List.find?_cons_of_neg (by simp [hne]), if_neg hname]
        exact ih

/-! ### Entries -/

/-- One entry is read: an unknown one is passed over, a known one comes for the first time. -/
inductive Reads (s : Schema σ) (r : Reading) (seen : List String) (x : σ) :
    Option String × Node → List String → σ → Prop where
  | unknown {name : String} {node : Node} : s.named? name = none → r.skip node = .ok () →
      Reads s r seen x (some name, node) seen x
  | known {name : String} {node : Node} {field : Field σ} {y : σ} :
      s.named? name = some field → name ∉ seen → field.read r node x = .ok y →
      Reads s r seen x (some name, node) (name :: seen) y

theorem readEntries_cons_eq_ok_iff {e : Option String × Node} {result : List String × σ} :
    s.readEntries r (e :: entries) seen x = .ok result ↔
      ∃ next y, s.Reads r seen x e next y ∧ s.readEntries r entries next y = .ok result := by
  obtain ⟨_ | name, node⟩ := e
  · refine ⟨by rintro ⟨⟩, ?_⟩
    rintro ⟨next, y, hreads, -⟩
    cases hreads
  · rw [readEntries]
    cases hnamed : s.named? name with
    | none =>
        simp only [bind_eq_ok_iff]
        constructor
        · rintro ⟨⟨⟩, hskip, hrest⟩
          exact ⟨seen, x, .unknown hnamed hskip, hrest⟩
        · rintro ⟨_, _, hreads, hrest⟩
          cases hreads with
          | unknown _ hskip => exact ⟨(), hskip, hrest⟩
          | known hknown => simp [hnamed] at hknown
    | some field =>
        simp only
        by_cases hseen : name ∈ seen
        · rw [if_pos (by simpa using hseen)]
          refine ⟨by rintro ⟨⟩, ?_⟩
          rintro ⟨_, _, hreads, -⟩
          cases hreads with
          | unknown hunknown => simp [hnamed] at hunknown
          | known _ hfresh => exact absurd hseen hfresh
        · rw [if_neg (by simpa using hseen), bind_eq_ok_iff]
          constructor
          · rintro ⟨y, hread, hrest⟩
            exact ⟨name :: seen, y, .known hnamed hseen hread, hrest⟩
          · rintro ⟨_, y, hreads, hrest⟩
            cases hreads with
            | unknown hunknown => simp [hnamed] at hunknown
            | known hknown _ hread =>
                obtain rfl : field = _ := Option.some.inj (hnamed.symm.trans hknown)
                exact ⟨y, hread, hrest⟩

theorem Reads.perm {e : Option String × Node} {next : List String} (h : s.Reads r seen x e next y)
    (hseen : seen'.Perm seen) : ∃ next', next'.Perm next ∧ s.Reads r seen' x e next' y := by
  cases h with
  | unknown hnamed hskip => exact ⟨seen', hseen, .unknown hnamed hskip⟩
  | known hnamed hfresh hread =>
      exact ⟨_, hseen.cons _, .known hnamed (fun hmem => hfresh (hseen.mem_iff.1 hmem)) hread⟩

/-- In which order the names were seen does not count. -/
theorem readEntries_of_perm {last : List String} (hseen : seen'.Perm seen)
    (h : s.readEntries r entries seen x = .ok (last, y)) :
    ∃ last', last'.Perm last ∧ s.readEntries r entries seen' x = .ok (last', y) := by
  induction entries generalizing seen seen' x with
  | nil =>
      obtain ⟨rfl, rfl⟩ : seen = last ∧ x = y := by simpa [readEntries] using h
      exact ⟨seen', hseen, rfl⟩
  | cons e entries ih =>
      obtain ⟨next, z, hreads, hrest⟩ := readEntries_cons_eq_ok_iff.1 h
      obtain ⟨next', hnext, hreads'⟩ := hreads.perm hseen
      obtain ⟨last', hlast, hrest'⟩ := ih hnext hrest
      exact ⟨last', hlast, readEntries_cons_eq_ok_iff.2 ⟨next', z, hreads', hrest'⟩⟩

theorem Reads.allows (h : List.Forall₂ Field.Follows s.fields parts) {name : Option String}
    {node node' : Node} {next : List String} (hchange : parts.Allows name node node')
    (hreads : s.Reads r seen x (name, node) next y) : s.Reads r seen x (name, node') next y := by
  cases hchange with
  | same => exact hreads
  | @part name change _ _ hlookup hchange =>
      obtain ⟨-, hnone⟩ | ⟨field, change', hnamed, hlookup', hfollows⟩ := named?_of_forall₂ h name
      · simp [hlookup] at hnone
      · obtain rfl : change = change' := Option.some.inj (hlookup.symm.trans hlookup')
        cases hreads with
        | unknown hunknown => simp [hnamed] at hunknown
        | known hknown hfresh hread =>
            obtain rfl : field = _ := Option.some.inj (hnamed.symm.trans hknown)
            exact .known hnamed hfresh (hfollows.respects hchange hread)

/-- Two entries, one after the other, may be read the other way round. -/
theorem Reads.swap (h : s.Independent) {e f : Option String × Node} {middle next : List String}
    {z : σ} (hfirst : s.Reads r seen x f middle y) (hsecond : s.Reads r middle y e next z) :
    ∃ middle' next' y', s.Reads r seen x e middle' y' ∧ s.Reads r middle' y' f next' z ∧
      next'.Perm next := by
  cases hfirst with
  | unknown hf hskip =>
      cases hsecond with
      | unknown he hskip' => exact ⟨_, _, _, .unknown he hskip', .unknown hf hskip, .refl _⟩
      | known he hfresh hread => exact ⟨_, _, _, .known he hfresh hread, .unknown hf hskip, .refl _⟩
  | @known key _ field _ hf hfresh hread =>
      cases hsecond with
      | unknown he hskip => exact ⟨_, _, _, .unknown he hskip, .known hf hfresh hread, .refl _⟩
      | @known key' _ field' _ he hfresh' hread' =>
          obtain ⟨hne, hnew⟩ := not_or.1 (mt List.mem_cons.2 hfresh')
          obtain ⟨hfield, rfl⟩ := named?_eq_some hf
          obtain ⟨hfield', rfl⟩ := named?_eq_some he
          have hcommutes := h.commutes hfield hfield' (Ne.symm hne)
          obtain ⟨y', hread₁, hread₂⟩ :=
            bind_eq_ok_iff.1 ((hcommutes r _ _ x z).1 (bind_eq_ok_iff.2 ⟨y, hread, hread'⟩))
          have hold : field.name ∉ field'.name :: seen := fun hmem =>
            (List.mem_cons.1 hmem).elim (Ne.symm hne) hfresh
          exact ⟨_, _, y', .known he hnew hread₁, .known hf hold hread₂, .swap ..⟩

theorem skip_of_isPlain {node : Node} (h : node.IsPlain) : r.skip node = .ok () := by
  simp [Reading.skip, h.wellFormed]

/-- The entries of a record may be rearranged. -/
theorem readEntries_of_shuffled (h : List.Forall₂ Field.Follows s.fields parts) (hs : s.Independent)
    (hentries : Shuffled parts entries entries') {last : List String}
    (hread : s.readEntries r entries seen x = .ok (last, y)) :
    ∃ last', last'.Perm last ∧ s.readEntries r entries' seen x = .ok (last', y) := by
  induction hentries generalizing seen x y last with
  | nil => exact ⟨last, .refl _, hread⟩
  | cons hchange _ ih =>
      obtain ⟨next, z, hreads, hrest⟩ := readEntries_cons_eq_ok_iff.1 hread
      obtain ⟨last', hlast, hrest'⟩ := ih hrest
      exact ⟨last', hlast, readEntries_cons_eq_ok_iff.2 ⟨next, z, hreads.allows h hchange, hrest'⟩⟩
  | swap e f entries =>
      -- the two names are now seen the other way round, which no later entry notices
      obtain ⟨middle, z, hfirst, hread⟩ := readEntries_cons_eq_ok_iff.1 hread
      obtain ⟨next, w, hsecond, hrest⟩ := readEntries_cons_eq_ok_iff.1 hread
      obtain ⟨middle', next', z', hfirst', hsecond', hnext⟩ := hfirst.swap hs hsecond
      obtain ⟨last', hlast, hrest'⟩ := readEntries_of_perm hnext hrest
      have hread' := readEntries_cons_eq_ok_iff.2 ⟨next', w, hsecond', hrest'⟩
      exact ⟨last', hlast, readEntries_cons_eq_ok_iff.2 ⟨middle', z', hfirst', hread'⟩⟩
  | @extra name node entries hlookup hplain =>
      have hnamed : s.named? name = none := by
        rcases named?_of_forall₂ h name with ⟨hnone, -⟩ | ⟨field, change, -, hsome, -⟩
        · exact hnone
        · simp [hlookup] at hsome
      exact ⟨last, .refl _, readEntries_cons_eq_ok_iff.2
        ⟨seen, x, .unknown hnamed (skip_of_isPlain hplain), hread⟩⟩
  | trans _ _ ih ih' =>
      obtain ⟨last', hlast, hread'⟩ := ih hread
      obtain ⟨last'', hlast', hread''⟩ := ih' hread'
      exact ⟨last'', hlast'.trans hlast, hread''⟩

/-! ### Whole records -/

theorem missing?_of_perm (h : seen'.Perm seen) : s.missing? seen' = s.missing? seen := by
  have hcontains : ∀ name, seen'.contains name = seen.contains name := fun name => by
    rw [Bool.eq_iff_iff, List.contains_iff_mem, List.contains_iff_mem, h.mem_iff]
  simp only [missing?, hcontains]

theorem read_table_eq_ok_iff {start : σ} :
    s.read start r (.table entries) = .ok x ↔
      ∃ seen, s.readEntries r.enter entries [] start = .ok (seen, x) ∧ s.missing? seen = none := by
  simp only [read, bind_eq_ok_iff, Prod.exists]
  constructor
  · rintro ⟨seen, y, hentries, hmissing⟩
    cases hnone : s.missing? seen with
    | none =>
        obtain rfl : y = x := by simpa [hnone] using hmissing
        exact ⟨seen, hentries, hnone⟩
    | some name => simp [hnone] at hmissing
  · rintro ⟨seen, hentries, hnone⟩
    exact ⟨seen, x, hentries, by simp [hnone]⟩

theorem readItems_of_changed {nodes nodes' : List Node} (hnodes : ItemsChanged parts nodes nodes')
    {fields : List (Field σ)} (h : List.Forall₂ Field.Follows fields parts) {index : Nat}
    (hread : s.readItems r index fields nodes x = .ok y) :
    s.readItems r index fields nodes' x = .ok y := by
  induction hnodes generalizing fields index x with
  | refl => exact hread
  | cons hchange _ ih =>
      cases h with
      | cons hfield hfields =>
          obtain ⟨z, hz, hrest⟩ := bind_eq_ok_iff.1 hread
          exact bind_eq_ok_iff.2 ⟨z, hfield.respects hchange hz, ih hfields hrest⟩

theorem respects_read (h : List.Forall₂ Field.Follows s.fields parts) (hs : s.Independent)
    (start : σ) : Respects (RecordOf parts) (s.read start) := by
  rintro r _ _ x (_ | hshuffled | hitems) hread
  · exact hread
  · obtain ⟨seen, hentries, hmissing⟩ := read_table_eq_ok_iff.1 hread
    obtain ⟨seen', hperm, hentries'⟩ := readEntries_of_shuffled h hs hshuffled hentries
    exact read_table_eq_ok_iff.2 ⟨seen', hentries', (missing?_of_perm hperm).trans hmissing⟩
  · exact readItems_of_changed hitems h hread

end Schema

/-! ## Values of several variants -/

namespace Reading

variable {r : Reading} {node node' : Node} {nodes nodes' : List Node}
  {es es' : List (Option String × Node)} {tag : String} {names : List String} {i j : Nat}

theorem hold_eq_ok_iff : r.hold node = .ok () ↔
    r.held = true ∨ node.readable = true ∧ (r.format = .toml ∨ node.height ≤ r.room) := by
  rw [hold]
  by_cases hheld : r.held = true
  · simp [hheld]
  · by_cases hsound : node.readable = true ∧ (r.format = .toml ∨ node.height ≤ r.room)
    · simp [hheld, hsound]
    · simp [hheld, hsound]

theorem hold_of_keeps {change : Node → Node → Prop} (h : Keeps change) (hchange : change node node')
    (hhold : r.hold node = .ok ()) : r.hold node' = .ok () := by
  rw [hold_eq_ok_iff] at hhold ⊢
  rw [h.height hchange]
  exact hhold.imp_right (And.imp_left (h.readable hchange))

theorem hold_of_isPlain (h : node.IsPlain) : r.hold node = .ok () :=
  hold_eq_ok_iff.2 (.inr ⟨h.readable, .inr (h.height ▸ Nat.zero_le _)⟩)

/-- A table whose tag is found and names a variant, or was found before. The other entries can be
taken in. -/
inductive Marked (tag : String) (names : List String) (r : Reading) :
    List (Option String × Node) → Option Nat → Nat → Prop where
  | nil {i : Nat} : Marked tag names r [] (some i) i
  | tag {i j : Nat} {node : Node} {es : List (Option String × Node)} :
      r.variant names node = .ok i → Marked tag names r es (some i) j →
      Marked tag names r ((some tag, node) :: es) none j
  | other {name : String} {kind : Option Nat} {j : Nat} {node : Node}
      {es : List (Option String × Node)} :
      name ≠ tag → r.hold node = .ok () → Marked tag names r es kind j →
      Marked tag names r ((some name, node) :: es) kind j

/-- The entries besides the tag, in their order. -/
def untagged (tag : String) (es : List (Option String × Node)) : List (Option String × Node) :=
  es.filter (·.1 ≠ some tag)

theorem untagged_tag (node : Node) (es : List (Option String × Node)) :
    untagged tag ((some tag, node) :: es) = untagged tag es := by
  simp [untagged]

theorem untagged_other {name : Option String} (h : name ≠ some tag) (node : Node)
    (es : List (Option String × Node)) :
    untagged tag ((name, node) :: es) = (name, node) :: untagged tag es := by
  simp [untagged, h]

theorem taggedEntries_eq_ok_iff {kind : Option Nat} {held all : List (Option String × Node)} :
    taggedEntries tag names r es kind held = .ok (i, all) ↔
      Marked tag names r es kind i ∧ all = held.reverse ++ untagged tag es := by
  induction es generalizing kind held with
  | nil =>
      cases kind with
      | none => exact ⟨by rintro ⟨⟩, by rintro ⟨⟨⟩, -⟩⟩
      | some j =>
          simp only [taggedEntries, pure_eq_ok, Except.ok.injEq, Prod.mk.injEq, untagged,
            List.filter_nil, List.append_nil]
          constructor
          · rintro ⟨rfl, rfl⟩
            exact ⟨.nil, rfl⟩
          · rintro ⟨hmarked, rfl⟩
            cases hmarked
            exact ⟨rfl, rfl⟩
  | cons e es ih =>
      obtain ⟨_ | name, node⟩ := e
      · exact ⟨by rintro ⟨⟩, by rintro ⟨⟨⟩, -⟩⟩
      · rw [taggedEntries]
        by_cases hname : name = tag
        · subst hname
          rw [if_pos rfl, untagged_tag]
          cases kind with
          | some j =>
              refine ⟨by rintro ⟨⟩, ?_⟩
              rintro ⟨hmarked, -⟩
              cases hmarked with
              | other hne => exact absurd rfl hne
          | none =>
              simp only [Option.isSome_none, Bool.false_eq_true, if_false, bind_eq_ok_iff, ih]
              constructor
              · rintro ⟨j, hvariant, hmarked, hall⟩
                exact ⟨.tag hvariant hmarked, hall⟩
              · rintro ⟨hmarked, hall⟩
                cases hmarked with
                | tag hvariant hmarked => exact ⟨_, hvariant, hmarked, hall⟩
                | other hne => exact absurd rfl hne
        · rw [if_neg hname, untagged_other (by simpa using hname)]
          simp only [bind_eq_ok_iff, ih, List.reverse_cons, List.append_assoc,
            List.singleton_append]
          constructor
          · rintro ⟨⟨⟩, hhold, hmarked, hall⟩
            exact ⟨.other hname hhold hmarked, hall⟩
          · rintro ⟨hmarked, hall⟩
            cases hmarked with
            | tag => exact absurd rfl hname
            | other _ hhold hmarked => exact ⟨(), hhold, hmarked, hall⟩

/-! ### Where the tag stands -/

section

variable {parts : Parts} {name : String}

theorem allows_tag (h : Parts.Allows ((tag, Eq) :: parts) (some tag) node node') :
    node = node' := by
  cases h with
  | same => rfl
  | part hlookup hchange =>
      rw [List.lookup_cons_self] at hlookup
      obtain rfl := Option.some.inj hlookup
      exact hchange

theorem allows_other {name : Option String} (h : name ≠ some tag)
    (hallows : Parts.Allows ((tag, Eq) :: parts) name node node') :
    parts.Allows name node node' := by
  cases hallows with
  | same => exact .same
  | part hlookup hchange =>
      rw [lookup_cons_ite, if_neg fun heq => h (congrArg some heq)] at hlookup
      exact .part hlookup hchange

theorem lookup_other (h : List.lookup name ((tag, Eq) :: parts) = none) :
    name ≠ tag ∧ parts.lookup name = none := by
  rw [lookup_cons_ite] at h
  split_ifs at h with hname
  exact ⟨hname, h⟩

theorem untagged_shuffled (h : Shuffled ((tag, Eq) :: parts) es es') :
    Shuffled parts (untagged tag es) (untagged tag es') := by
  induction h with
  | nil => exact .nil
  | @cons name _ _ _ _ hchange _ ih =>
      by_cases hname : name = some tag
      · subst hname
        rwa [untagged_tag, untagged_tag]
      · rw [untagged_other hname, untagged_other hname]
        exact .cons (allows_other hname hchange) ih
  | swap e f entries =>
      simp only [untagged, List.filter_cons]
      split_ifs
      · exact .swap ..
      all_goals exact .refl _
  | extra _ hlookup hplain =>
      obtain ⟨hne, hlookup⟩ := lookup_other hlookup
      rw [untagged_other fun heq => hne (Option.some.inj heq)]
      exact .extra _ hlookup hplain
  | trans _ _ ih ih' => exact .trans ih ih'

end

namespace Marked

theorem not_mem {kind : Node} (h : Marked tag names r es (some i) j) : (some tag, kind) ∉ es := by
  generalize hfound : some i = found at h
  induction h with
  | nil => exact List.not_mem_nil
  | tag => cases hfound
  | other hne _ _ ih =>
      intro hmem
      rcases List.mem_cons.1 hmem with heq | hmem
      · exact hne (Option.some.inj (congrArg Prod.fst heq)).symm
      · exact ih hfound hmem

theorem eq_found (h : Marked tag names r es (some i) j) : i = j := by
  generalize hfound : some i = found at h
  induction h with
  | nil => exact Option.some.inj hfound
  | tag => cases hfound
  | other _ _ _ ih => exact ih hfound

theorem variant {kind : Node} (h : Marked tag names r es none i) (hmem : (some tag, kind) ∈ es) :
    r.variant names kind = .ok i := by
  generalize hfound : none = found at h
  induction h with
  | nil => cases hfound
  | tag hvariant hrest =>
      rcases List.mem_cons.1 hmem with heq | hmem
      · obtain rfl : kind = _ := congrArg Prod.snd heq
        rwa [← hrest.eq_found]
      · exact absurd hmem hrest.not_mem
  | other hne _ _ ih =>
      rcases List.mem_cons.1 hmem with heq | hmem
      · exact absurd (Option.some.inj (congrArg Prod.fst heq)).symm hne
      · exact ih hmem hfound

theorem swap {e f : Option String × Node} {kind : Option Nat}
    (h : Marked tag names r (f :: e :: es) kind i) : Marked tag names r (e :: f :: es) kind i := by
  cases h with
  | tag hvariant hrest =>
      cases hrest with
      | other hne hhold hrest => exact .other hne hhold (.tag hvariant hrest)
  | other hne hhold hrest =>
      cases hrest with
      | tag hvariant hrest => exact .tag hvariant (.other hne hhold hrest)
      | other hne' hhold' hrest => exact .other hne' hhold' (.other hne hhold hrest)

theorem shuffled {parts : Parts} (h : ∀ part ∈ parts, Keeps part.2)
    (hshuffled : Shuffled ((tag, Eq) :: parts) es es') {kind : Option Nat}
    (hmarked : Marked tag names r es kind i) : Marked tag names r es' kind i := by
  induction hshuffled generalizing kind with
  | nil => exact hmarked
  | cons hchange _ ih =>
      cases hmarked with
      | tag hvariant hrest =>
          obtain rfl := allows_tag hchange
          exact .tag hvariant (ih hrest)
      | other hne hhold hrest =>
          have hallows := allows_other (fun heq => hne (Option.some.inj heq)) hchange
          exact .other hne (hold_of_keeps (Parts.keeps_allows h _) hallows hhold) (ih hrest)
  | swap => exact hmarked.swap
  | extra _ hlookup hplain =>
      exact .other (lookup_other hlookup |>.1) (hold_of_isPlain hplain) hmarked
  | trans _ _ ih ih' => exact ih' (ih hmarked)

end Marked

/-! ### Whole values -/

theorem holdItems_eq_ok_iff :
    r.holdItems nodes = .ok () ↔ ∀ node ∈ nodes, r.hold node = .ok () := by
  induction nodes with
  | nil => simp [holdItems]
  | cons node nodes ih =>
      rw [holdItems, bind_eq_ok_iff, List.forall_mem_cons, ← ih]
      constructor
      · rintro ⟨⟨⟩, hnode, hnodes⟩
        exact ⟨hnode, hnodes⟩
      · rintro ⟨hnode, hnodes⟩
        exact ⟨(), hnode, hnodes⟩

theorem holdItems_of_changed {parts : Parts} (h : ∀ part ∈ parts, Keeps part.2)
    (hnodes : ItemsChanged parts nodes nodes') (hhold : r.holdItems nodes = .ok ()) :
    r.holdItems nodes' = .ok () := by
  rw [holdItems_eq_ok_iff] at hhold ⊢
  induction hnodes with
  | refl => exact hhold
  | cons hchange _ ih =>
      obtain ⟨hpart, hparts⟩ := List.forall_mem_cons.1 h
      obtain ⟨hnode, hnodes⟩ := List.forall_mem_cons.1 hhold
      exact List.forall_mem_cons.2 ⟨hold_of_keeps hpart hchange hnode, ih hparts hnodes⟩

theorem eq_of_picks {kind : Node} (h : kind.Picks names i)
    (hvariant : r.variant names kind = .ok j) : i = j := by
  cases kind with
  | string name =>
      have hfound : names.findIdx? (· == name) = some i := h
      simpa [variant, hfound] using hvariant
  | integer n =>
      obtain rfl : n = i := h
      rw [variant] at hvariant
      split_ifs at hvariant
      simpa using hvariant
  | _ => cases h

theorem respects_tagged {title : String} {parts : Nat → Parts}
    {read : Nat → Reading → Node → Except Fault α} (h : ∀ i, ∀ part ∈ parts i, Keeps part.2)
    (hread : ∀ i, Respects (RecordOf (parts i)) (read i)) :
    Respects (VariantOf tag names parts) (tagged title tag names read) := by
  rintro r _ _ a
    (_ | @⟨i, kind, es, es', hmem, hpicks, hshuffled⟩ | @⟨i, kind, _, _, hpicks, hitems⟩) ha
  · exact ha
  · obtain ⟨⟨j, held⟩, hentries, hvalue⟩ := bind_eq_ok_iff.1 ha
    obtain ⟨hmarked, rfl⟩ := taggedEntries_eq_ok_iff.1 hentries
    obtain rfl := eq_of_picks hpicks (hmarked.variant hmem)
    have hentries' : taggedEntries tag names r.enter es' none [] = .ok (i, untagged tag es') :=
      taggedEntries_eq_ok_iff.2 ⟨hmarked.shuffled (h i) hshuffled, rfl⟩
    exact bind_eq_ok_iff.2 ⟨_, hentries', hread i (.table (untagged_shuffled hshuffled)) hvalue⟩
  · obtain ⟨j, hvariant, hrest⟩ := bind_eq_ok_iff.1 ha
    obtain rfl := eq_of_picks hpicks hvariant
    obtain ⟨⟨⟩, hhold, hvalue⟩ := bind_eq_ok_iff.1 hrest
    have hhold' := holdItems_of_changed (h i) hitems hhold
    exact bind_eq_ok_iff.2
      ⟨i, hvariant, bind_eq_ok_iff.2 ⟨(), hhold', hread i (.list hitems) hvalue⟩⟩

end Reading

end Bindery
