import Bindery.Proofs.Files.Operations
import Bindery.Proofs.Generation.Memory

/-!
# Generating into a directory

A directory may refuse a unit. As long as it refuses none, it takes the units of the stages one
after the other, and in the end it holds what memory would hold.
-/

namespace Bindery

open FileSystem Bindery.Path

theorem TargetId.isName_name (id : TargetId) : IsName id.name := by
  cases id <;> decide

namespace Target

theorem isName_of_mem_unitNames (id : TargetId) {name : String} (h : name ∈ (ofId id).unitNames) :
    IsName name := by
  have hnames : ∀ name ∈ (ofId id).unitNames, IsName name := by
    cases id <;> decide
  exact hnames name h

theorem isName_unit {id : TargetId} {s : Spec} {rules : IdentifierRules} {bridgeModule : String}
    {stages : List Stage} (h : s.Sound rules)
    (hstages : (ofId id).stages s bridgeModule = .ok stages) :
    ∀ stage ∈ stages, IsName stage.unit.name := by
  intro stage hstage
  refine isName_of_mem_unitNames id ?_
  rw [← names_stages h hstages]
  exact List.mem_map_of_mem hstage

end Target

namespace Sink

/-- The entries of a directory that holds what is on a shelf. -/
def files (shelf : Shelf) : List (String × Entry) :=
  shelf.entries.map fun entry => (entry.1, .file (.text entry.2.text))

theorem map_fst_files (shelf : Shelf) : (files shelf).map Prod.fst = shelf.keys := by
  simp [files, OrderedMap.keys]

theorem files_insert (shelf : Shelf) (u : OutputUnit) :
    files (shelf.insert u.name u) = OrderedMap.put u.name (.file (.text u.text)) (files shelf) :=
  OrderedMap.map_put (fun u : OutputUnit => Entry.file (.text u.text)) u.name u shelf.entries

/-- Every unit of the shelf is a file of the directory. -/
structure Holds (root : String) (shelf : Shelf) (fs : FileSystem) : Prop where
  admissible : ∀ name ∈ shelf.keys, Admissible (join root name)
  written : ∀ name u, shelf.get? name = some u →
    fs.root.get? (fs.place root ++ [name]) = some (.file (.text u.text))

/-- Nothing else is in the directory, which may be missing if there is nothing on the shelf. -/
def HoldsOnly (root : String) (shelf : Shelf) (fs : FileSystem) : Prop :=
  fs.root.get? (fs.place root) = some (.directory (files shelf)) ∨
    (fs.root.get? (fs.place root) = none ∧ files shelf = [])

theorem holds_empty (root : String) (fs : FileSystem) : Holds root ∅ fs :=
  ⟨nofun, nofun⟩

section

variable {root : String} {shelf : Shelf} {u : OutputUnit} {fs fs' : FileSystem}

theorem Holds.insert (h : Holds root shelf fs) (hwrites : Writes root u.name u.text fs fs') :
    Holds root (shelf.insert u.name u) fs' where
  admissible name hname := by
    rw [OrderedMap.keys, OrderedMap.insert, OrderedMap.map_fst_put] at hname
    split at hname
    next => exact h.admissible name hname
    next =>
      rcases List.mem_append.1 hname with hname | hname
      · exact h.admissible name hname
      · exact List.mem_singleton.1 hname ▸ hwrites.admissible
  written name v hv := by
    obtain ⟨entries, hbefore, hafter⟩ := hwrites.there
    rw [place_eq_of_working hwrites.working, Entry.get?_concat, hafter, Option.bind_some,
      Entry.get?_put_singleton]
    rw [OrderedMap.get?_insert] at hv
    split at hv
    next hname =>
      obtain rfl := Option.some.inj hv
      rw [if_pos hname]
    next hname =>
      have hwritten := h.written name v hv
      rw [if_neg hname]
      rcases hbefore with hbefore | ⟨hnone, -⟩
      · rwa [Entry.get?_concat, hbefore, Option.bind_some, Entry.get?_singleton] at hwritten
      · rw [Entry.get?_concat, hnone] at hwritten
        cases hwritten

theorem HoldsOnly.insert (h : HoldsOnly root shelf fs)
    (hwrites : Writes root u.name u.text fs fs') :
    HoldsOnly root (shelf.insert u.name u) fs' := by
  obtain ⟨entries, hbefore, hafter⟩ := hwrites.there
  have hentries : entries = files shelf := by
    rcases hbefore with hbefore | ⟨hnone, hempty⟩ <;> rcases h with h | ⟨h, hfiles⟩
    · simpa [hbefore] using h
    · simp [hbefore] at h
    · simp [hnone] at h
    · rw [hempty, hfiles]
  have hnodup : ((files shelf).map Prod.fst).Nodup := map_fst_files shelf ▸ shelf.nodup
  left
  rw [place_eq_of_working hwrites.working, hafter, hentries, Entry.put_singleton_of_nodup hnodup,
    files_insert]

theorem Holds.keep (h : Holds root shelf fs) (hkeeps : Keeps (fs.place root) fs fs') :
    Holds root shelf fs' where
  admissible := h.admissible
  written name u hu := by
    rw [place_eq_of_working hkeeps.working]
    exact hkeeps.inside [name] _ (h.written name u hu)

end

/-- The units of the stages were written, one after the other. -/
inductive WritesAll (root : String) : List Stage → FileSystem → FileSystem → Prop where
  | nil (fs : FileSystem) : WritesAll root [] fs fs
  | cons {stage : Stage} {stages : List Stage} {fs fs' fs'' : FileSystem} :
      Writes root stage.unit.name stage.unit.text fs fs' →
      WritesAll root stages fs' fs'' →
      WritesAll root (stage :: stages) fs fs''

section

variable {root : String} {shelf : Shelf} {stages : List Stage} {fs fs' : FileSystem}

theorem Holds.shelve (h : Holds root shelf fs) (hwrites : WritesAll root stages fs fs') :
    Holds root (shelve stages shelf) fs' := by
  induction hwrites generalizing shelf with
  | nil fs => exact h
  | cons hwrites _ ih => exact ih (h.insert hwrites)

theorem HoldsOnly.shelve (h : HoldsOnly root shelf fs) (hwrites : WritesAll root stages fs fs') :
    HoldsOnly root (shelve stages shelf) fs' := by
  induction hwrites generalizing shelf with
  | nil fs => exact h
  | cons hwrites _ ih => exact ih (h.insert hwrites)

end

/-- Stages whose units have different names are all kept. -/
theorem entries_shelve {stages : List Stage} {shelf : Shelf}
    (h : (shelf.keys ++ stages.map (·.unit.name)).Nodup) :
    (shelve stages shelf).entries =
      shelf.entries ++ stages.map fun stage => (stage.unit.name, stage.unit) := by
  induction stages generalizing shelf with
  | nil => simp [shelve]
  | cons stage stages ih =>
      have hmem : stage.unit.name ∉ shelf.keys := fun hmem =>
        (List.nodup_append.1 h).2.2 _ hmem _ List.mem_cons_self rfl
      have hentries := @OrderedMap.entries_insert_of_not_mem _ shelf _ stage.unit hmem
      have hkeys := @OrderedMap.keys_insert_of_not_mem _ shelf _ stage.unit hmem
      have hrest := @ih (shelf.insert stage.unit.name stage.unit) (by simpa [hkeys] using h)
      rw [hentries, List.append_assoc] at hrest
      exact hrest

theorem keys_shelve {stages : List Stage} (h : (stages.map (·.unit.name)).Nodup) :
    (shelve stages ∅).keys = stages.map (·.unit.name) := by
  rw [OrderedMap.keys, @entries_shelve stages ∅ h, List.map_append, List.map_map]
  rfl

/-- What is said of a unit that was written. -/
def summaryIn (root : String) (u : OutputUnit) : UnitSummary :=
  { summary u with path := some (join root u.name) }

theorem close_directory (config : Config) (root : String) (u : OutputUnit) (m : Machine) :
    (directory config false root).close u m =
      match m.files.writeIn root u.name u.text with
      | (some fault, files) => { result := .error fault, state := { m with files } }
      | (none, files) => {
          result := .ok (summaryIn root u)
          log := [.debug ("wrote " ++ join root u.name)]
          state := { m with files } } := rfl

end Sink

namespace Emission

variable {config : Config} {root : String} {stages : List Stage} {m : Machine}
  (hup : ".." ∉ rawParts root) (hnames : ∀ stage ∈ stages, IsName stage.unit.name)

include hup hnames

theorem ofStages_directory
    (h : (ofStages (Sink.directory config false root) stages m).1.abort = none) :
    let (emission, m') := ofStages (Sink.directory config false root) stages m
    emission.units = stages.map (fun stage => Sink.summaryIn root stage.unit) ∧
      emission.issues = stages.flatMap Stage.issues ∧
      Sink.WritesAll root stages m.files m'.files := by
  induction stages generalizing m with
  | nil => exact ⟨rfl, rfl, .nil _⟩
  | cons stage stages ih =>
      obtain ⟨hname, hnames⟩ := List.forall_mem_cons.1 hnames
      cases hwrite : m.files.writeIn root stage.unit.name stage.unit.text with
      | mk fault files =>
          cases fault with
          | some fault => simp [ofStages, Sink.close_directory, hwrite] at h
          | none =>
              simp only [ofStages, Sink.close_directory, hwrite] at h ⊢
              obtain ⟨hunits, hissues, hwrites⟩ := @ih { m with files } hnames h
              refine ⟨?_, ?_, .cons (writes_writeIn hup hname hwrite) hwrites⟩
              · rw [hunits, List.map_cons]
              · rw [hissues, List.flatMap_cons]

/-- Whether or not a unit is refused. -/
theorem spares_ofStages :
    Spares (m.files.place root) m.files
      (ofStages (Sink.directory config false root) stages m).2.files := by
  induction stages generalizing m with
  | nil => exact .refl _ _
  | cons stage stages ih =>
      obtain ⟨hname, hnames⟩ := List.forall_mem_cons.1 hnames
      have hspares : Spares (m.files.place root) m.files
          (m.files.writeIn root stage.unit.name stage.unit.text).2 := spares_writeIn hup hname
      cases hwrite : m.files.writeIn root stage.unit.name stage.unit.text with
      | mk fault files =>
          rw [hwrite] at hspares
          cases fault with
          | some fault =>
              simp only [ofStages, Sink.close_directory, hwrite]
              exact hspares
          | none =>
              simp only [ofStages, Sink.close_directory, hwrite]
              have hrest := @ih { m with files } hnames
              rw [place_eq_of_working hspares.working] at hrest
              exact hspares.trans hrest

/-- A directory that is there refuses nothing, unless a directory is in the way. -/
theorem abort_ofStages_eq_none {entries : List (String × Entry)} (hne : root ≠ "")
    (hlast : ∀ part ∈ (rawParts root).getLast?, leads part = true)
    (hpath : ∀ stage ∈ stages, Admissible (join root stage.unit.name))
    (hdirectory : m.files.root.get? (m.files.place root) = some (.directory entries))
    (hvacant : ∀ stage ∈ stages, ∀ inside,
      entries.lookup stage.unit.name ≠ some (.directory inside)) :
    (ofStages (Sink.directory config false root) stages m).1.abort = none := by
  induction stages generalizing m entries with
  | nil => rfl
  | cons stage stages ih =>
      obtain ⟨hname, hnames⟩ := List.forall_mem_cons.1 hnames
      obtain ⟨hfirst, hpath⟩ := List.forall_mem_cons.1 hpath
      obtain ⟨hfree, hvacant⟩ := List.forall_mem_cons.1 hvacant
      have hensure := ensure_of_get? (hfirst.directory hname hne) hup hlast hdirectory
      obtain ⟨entries', hput, hlookup⟩ :=
        Entry.exists_put_singleton stage.unit.name (.file (.text stage.unit.text)) entries
      simp only [ofStages, Sink.close_directory,
        writeIn_of_directory hup hname hensure hfirst hdirectory hfree]
      have hafter := (Entry.get?_put_append hdirectory _).trans (congrArg some hput)
      refine ih hnames hpath hafter fun next hnext inside => ?_
      rw [hlookup]
      split
      next => simp
      next => exact hvacant next hnext inside

omit hup hnames in
/-- It makes no difference whether the directory is made first. -/
theorem abort_ofStages_of_ensure {made : FileSystem} (h : m.files.ensure root = (none, made))
    (hmade : made.ensure root = (none, made)) :
    (ofStages (Sink.directory config false root) stages m).1.abort =
      (ofStages (Sink.directory config false root) stages { m with files := made }).1.abort := by
  cases stages with
  | nil => rfl
  | cons stage stages =>
      simp only [ofStages, Sink.close_directory, writeIn_of_ensure h hmade]

end Emission

namespace TargetReport

variable {σ : Type} {s : Spec} {bridgeModule : Option String} {sink : Sink σ} {state : σ}

theorem target_generate (t : Target) :
    (generate t s bridgeModule sink state).report.target = t.id := by
  rw [generate]
  split
  next =>
    cases hemission : Emission.ofSpec t s bridgeModule sink state with
    | mk emission last =>
        cases habort : emission.abort <;> simp [habort, aborted]
  next => rfl

variable {id : TargetId}

/-- A target that was not given up has gone through all its stages. -/
theorem generate_completed
    (h : (generate (.ofId id) s bridgeModule sink state).report.error = none) :
    s.validate (Target.ofId id).identifiers = [] ∧
      ∃ stages, (Target.ofId id).stages s (bridgeModule.getD (Target.ofId id).bridgeModule) =
          .ok stages ∧
        (Emission.ofStages sink stages state).1.abort = none ∧
        (generate (.ofId id) s bridgeModule sink state).report = {
          target := id
          units := (Emission.ofStages sink stages state).1.units
          coverage := s.coverage (Target.ofId id).mapping
          issues := (Emission.ofStages sink stages state).1.issues } ∧
        (generate (.ofId id) s bridgeModule sink state).state =
          (Emission.ofStages sink stages state).2 := by
  by_cases hvalid : s.validate (Target.ofId id).identifiers = []
  · refine ⟨hvalid, ?_⟩
    cases hstages : (Target.ofId id).stages s (bridgeModule.getD (Target.ofId id).bridgeModule) with
    | error violations =>
        rw [(generate_of_refusal sink state hvalid hstages).1] at h
        cases h
    | ok stages =>
        obtain ⟨hreport, hstate⟩ := generate_of_stages sink state hvalid hstages
        rw [ofEmission] at hreport
        cases habort : (Emission.ofStages sink stages state).1.abort with
        | none =>
            rw [habort] at hreport
            exact ⟨stages, rfl, habort, hreport, hstate⟩
        | some abort =>
            rw [hreport, habort] at h
            cases h
  · rw [(generate_of_invalid hvalid bridgeModule sink state).1] at h
    cases h

theorem error_generate_eq_none {stages : List Stage}
    (hvalid : s.validate (Target.ofId id).identifiers = [])
    (hstages : (Target.ofId id).stages s (bridgeModule.getD (Target.ofId id).bridgeModule) =
      .ok stages)
    (habort : (Emission.ofStages sink stages state).1.abort = none) :
    (generate (.ofId id) s bridgeModule sink state).report.error = none := by
  rw [(generate_of_stages sink state hvalid hstages).1, ofEmission, habort]

/-- Whether or not the target is given up. -/
theorem spares_generate {config : Config} {root : String} (hup : ".." ∉ rawParts root)
    (id : TargetId) (s : Spec) (bridgeModule : Option String) (m : Machine) :
    Spares (m.files.place root) m.files
      (generate (.ofId id) s bridgeModule (Sink.directory config false root) m).state.files := by
  by_cases hvalid : (s.validate (Target.ofId id).identifiers).isEmpty = true
  · have hsound := (s.validate_eq_nil_iff _).1 (List.isEmpty_iff.1 hvalid)
    cases hstages : (Target.ofId id).stages s (bridgeModule.getD (Target.ofId id).bridgeModule) with
    | error violations =>
        simp only [generate, hvalid, if_true, Emission.ofSpec_of_refusal hstages]
        exact .refl _ _
    | ok stages =>
        simp only [generate, hvalid, if_true, Emission.ofSpec_of_stages hstages]
        exact Emission.spares_ofStages hup (Target.isName_unit hsound hstages)
  · rw [generate, if_neg hvalid]
    exact .refl _ _

end TargetReport

end Bindery
