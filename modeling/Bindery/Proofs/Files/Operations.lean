import Bindery.Proofs.Files.Path
import Bindery.Proofs.Files.Tree

/-!
# What operations on files do

A path without `..` leads to one place, whatever stands there. Directories are made at that place
and on the way to it, and a file is written there; nothing else changes.
-/

namespace Bindery.FileSystem

open Bindery.Path

/-! ## Following paths -/

/-- Where the way of a path begins. -/
def start (fs : FileSystem) (path : String) : Location :=
  if isAbsolute path then [] else fs.working

/-- Where a path leads to, if no part of it leads up. -/
def place (fs : FileSystem) (path : String) : Location :=
  fs.start path ++ parts path

/-- The system takes the path, whatever stands there. -/
structure Admissible (path : String) : Prop where
  noNul : path.contains '\x00' = false
  nonempty : path.isEmpty = false
  short : path.utf8ByteSize < pathLimit
  partsShort : ∀ part ∈ parts path, part.utf8ByteSize ≤ nameLimit

instance : DecidablePred Admissible := fun path =>
  decidable_of_iff ('\x00' ∉ path.toList ∧ path.isEmpty = false ∧ path.utf8ByteSize < pathLimit ∧
      ∀ part ∈ parts path, part.utf8ByteSize ≤ nameLimit)
    ⟨fun ⟨hnul, hempty, hshort, hparts⟩ => ⟨by simpa using hnul, hempty, hshort, hparts⟩,
      fun h => ⟨by simpa using h.noNul, h.nonempty, h.short, h.partsShort⟩⟩

section

variable {root e : Entry} {l l' : Location} {found : Option Entry} {ps : List String}

theorem follow_cons_ok {part : String}
    (h : follow root (part :: ps) l (root.get? l) = .ok (l', found)) (hup : part ≠ "..") :
    (∃ entries, root.get? l = some (.directory entries)) ∧
      ((leads part = false ∧ follow root ps l (root.get? l) = .ok (l', found)) ∨
      (leads part = true ∧ part.utf8ByteSize ≤ nameLimit ∧
        follow root ps (l ++ [part]) (root.get? (l ++ [part])) = .ok (l', found))) := by
  cases hget : root.get? l with
  | none => simp [follow, hget, throw, throwThe, MonadExceptOf.throw] at h
  | some d =>
      rw [hget] at h
      cases d with
      | file content => simp [follow, throw, throwThe, MonadExceptOf.throw] at h
      | directory entries =>
          refine ⟨⟨entries, rfl⟩, ?_⟩
          rw [follow] at h
          split at h
          next hpart => exact .inl ⟨by simpa [leads, or_iff_not_imp_left] using hpart, h⟩
          next hpart =>
            split at h
            next => simp [throw, throwThe, MonadExceptOf.throw] at h
            next hshort =>
              have hlookup : entries.lookup part = root.get? (l ++ [part]) := by
                rw [Entry.get?_concat, hget, Option.bind_some, Entry.get?_singleton]
              rw [hlookup] at h
              exact .inr ⟨by simpa [leads] using hpart, by omega, h⟩

theorem follow_ok (h : follow root ps l (root.get? l) = .ok (l', found)) (hup : ".." ∉ ps) :
    l' = l ++ ps.filter leads ∧ found = root.get? l' ∧
      ∀ part ∈ ps.filter leads, part.utf8ByteSize ≤ nameLimit := by
  induction ps generalizing l with
  | nil =>
      obtain ⟨rfl, rfl⟩ : l = l' ∧ root.get? l = found := by
        simpa [follow, pure, Except.pure] using h
      simp
  | cons part ps ih =>
      obtain ⟨hpart, hups⟩ := List.ne_and_not_mem_of_not_mem_cons hup
      rcases (follow_cons_ok h hpart.symm).2 with ⟨hleads, h⟩ | ⟨hleads, hshort, h⟩
      · rw [List.filter_cons_of_neg (by simp [hleads])]
        exact ih h hups
      · obtain ⟨hl, hfound, hparts⟩ := ih h hups
        rw [List.filter_cons_of_pos hleads]
        exact ⟨by simpa using hl, hfound, List.forall_mem_cons.2 ⟨hshort, hparts⟩⟩

/-- What has been looked for in a directory was looked for in one that is there. -/
theorem exists_directory_of_follow_ok {name : String}
    (h : follow root (ps ++ [name]) l (root.get? l) = .ok (l', found))
    (hup : ".." ∉ ps ++ [name]) :
    ∃ entries, root.get? (l ++ ps.filter leads) = some (.directory entries) := by
  induction ps generalizing l with
  | nil =>
      have hname : name ≠ ".." := fun heq => hup (by simp [heq])
      simpa using (follow_cons_ok h hname).1
  | cons part ps ih =>
      obtain ⟨hpart, hups⟩ := List.ne_and_not_mem_of_not_mem_cons hup
      rcases (follow_cons_ok h hpart.symm).2 with ⟨hleads, h⟩ | ⟨hleads, -, h⟩
      · rw [List.filter_cons_of_neg (by simp [hleads])]
        exact ih h hups
      · rw [List.filter_cons_of_pos hleads]
        simpa using ih h hups

/-- A name is looked for in the directory before it. -/
theorem follow_of_directory {name : String} {entries : List (String × Entry)}
    (hup : ".." ∉ ps ++ [name]) (hname : leads name = true)
    (hshort : ∀ part ∈ (ps ++ [name]).filter leads, part.utf8ByteSize ≤ nameLimit)
    (h : root.get? (l ++ ps.filter leads) = some (.directory entries)) :
    follow root (ps ++ [name]) l (root.get? l) =
      .ok (l ++ ps.filter leads ++ [name], entries.lookup name) := by
  induction ps generalizing l with
  | nil =>
      have hpart : ¬ (decide (name = "") || decide (name = ".")) = true := by
        simpa [leads] using hname
      have hdirectory : root.get? l = some (.directory entries) := by simpa using h
      have hlimit : name.utf8ByteSize ≤ nameLimit := hshort name (by simp [hname])
      rw [hdirectory, List.nil_append, follow, if_neg hpart, if_neg (by simpa [eq_comm] using hup),
        if_neg (by omega)]
      simp [follow, pure, Except.pure]
  | cons part ps ih =>
      rw [List.cons_append, List.mem_cons, not_or] at hup
      obtain ⟨inside, hinside⟩ := Entry.exists_directory_of_get?_directory h
      rw [hinside, List.cons_append, follow]
      by_cases hleads : leads part = true
      · have hpart : ¬ (decide (part = "") || decide (part = ".")) = true := by
          simpa [leads] using hleads
        rw [List.filter_cons_of_pos hleads] at h ⊢
        rw [List.cons_append, List.filter_cons_of_pos hleads] at hshort
        obtain ⟨hfirst, hrest⟩ := List.forall_mem_cons.1 hshort
        have hlookup : inside.lookup part = root.get? (l ++ [part]) := by
          rw [Entry.get?_concat, hinside, Option.bind_some, Entry.get?_singleton]
        rw [if_neg hpart, if_neg (Ne.symm hup.1), if_neg (by omega), hlookup]
        simpa using ih (l := l ++ [part]) hup.2 hrest (by simpa using h)
      · have hpart : (decide (part = "") || decide (part = ".")) = true := by
          simpa [leads, or_iff_not_imp_left] using hleads
        rw [List.filter_cons_of_neg hleads] at h ⊢
        rw [List.cons_append, List.filter_cons_of_neg hleads] at hshort
        rw [if_pos hpart, ← hinside]
        exact ih hup.2 hshort h

/-- A path is followed to what is there, if it ends in a name. -/
theorem follow_of_get? (hup : ".." ∉ ps) (hlast : ∀ part ∈ ps.getLast?, leads part = true)
    (hshort : ∀ part ∈ ps.filter leads, part.utf8ByteSize ≤ nameLimit)
    (h : root.get? (l ++ ps.filter leads) = some e) :
    follow root ps l (root.get? l) = .ok (l ++ ps.filter leads, some e) := by
  rcases List.eq_nil_or_concat' ps with rfl | ⟨before, name, rfl⟩
  · have hroot : root.get? l = some e := by simpa using h
    rw [hroot]
    simp [follow, pure, Except.pure]
  · have hname : leads name = true := hlast name (by simp)
    have hfilter : (before ++ [name]).filter leads = before.filter leads ++ [name] := by
      simp [hname]
    rw [hfilter, ← List.append_assoc] at h
    obtain ⟨entries, hentries⟩ := Entry.exists_directory_of_get?_append (List.cons_ne_nil _ _) h
    have hlookup : entries.lookup name = some e := by
      rwa [Entry.get?_concat, hentries, Option.bind_some, Entry.get?_singleton] at h
    rw [follow_of_directory hup hname hshort hentries, hlookup, hfilter, List.append_assoc]

end

variable {fs fs' : FileSystem} {path : String}

theorem locate_eq_ok_iff {l : Location} {found : Option Entry} :
    fs.locate path = .ok (l, found) ↔
      (path.contains '\x00' = false ∧ path.isEmpty = false ∧ path.utf8ByteSize < pathLimit) ∧
      follow fs.root (rawParts path) (fs.start path) (fs.root.get? (fs.start path)) =
        .ok (l, found) := by
  have hstart : (if isAbsolute path then follow fs.root (rawParts path) [] (some fs.root)
      else follow fs.root (rawParts path) fs.working (fs.root.get? fs.working)) =
      follow fs.root (rawParts path) (fs.start path) (fs.root.get? (fs.start path)) := by
    rw [start]
    split <;> rfl
  rw [locate, hstart]
  by_cases hnul : path.contains '\x00' = true
  · simp only [hnul, if_true]
    simp [throw, throwThe, MonadExceptOf.throw]
  · by_cases hempty : path.isEmpty = true
    · simp only [hnul, hempty, if_true]
      simp [throw, throwThe, MonadExceptOf.throw]
    · by_cases hshort : pathLimit ≤ path.utf8ByteSize
      · simp only [hnul, hempty, hshort, if_true]
        simp [throw, throwThe, MonadExceptOf.throw, Nat.not_lt.2 hshort]
      · simp only [hnul, hempty, hshort, Nat.not_le.1 hshort]
        simp

theorem locate_ok {l : Location} {found : Option Entry} (h : fs.locate path = .ok (l, found))
    (hup : ".." ∉ rawParts path) :
    Admissible path ∧ l = fs.place path ∧ found = fs.root.get? (fs.place path) := by
  obtain ⟨⟨hnul, hempty, hshort⟩, hfollow⟩ := locate_eq_ok_iff.1 h
  obtain ⟨rfl, hfound, hparts⟩ := follow_ok hfollow hup
  exact ⟨⟨hnul, hempty, hshort, hparts⟩, rfl, hfound⟩

theorem locate_of_get? {e : Entry} (hpath : Admissible path) (hup : ".." ∉ rawParts path)
    (hlast : ∀ part ∈ (rawParts path).getLast?, leads part = true)
    (h : fs.root.get? (fs.place path) = some e) :
    fs.locate path = .ok (fs.place path, some e) :=
  locate_eq_ok_iff.2 ⟨⟨hpath.noNul, hpath.nonempty, hpath.short⟩,
    follow_of_get? hup hlast hpath.partsShort h⟩

section

variable {directory name : String} (hname : IsName name)

include hname

theorem place_join (fs : FileSystem) :
    fs.place (join directory name) = fs.place directory ++ [name] := by
  rw [place, place, start, start, hname.isAbsolute_join, hname.parts_join, List.append_assoc]

theorem locate_join {entries : List (String × Entry)} (hpath : Admissible (join directory name))
    (hup : ".." ∉ rawParts directory)
    (h : fs.root.get? (fs.place directory) = some (.directory entries)) :
    fs.locate (join directory name) = .ok (fs.place directory ++ [name], entries.lookup name) := by
  obtain ⟨before, hraw, hparts, -⟩ := hname.exists_rawParts_join directory
  have hups := hname.not_mem_rawParts_join hup
  have hshort := hpath.partsShort
  rw [parts_eq_filter] at hshort
  rw [hraw] at hups hshort
  refine locate_eq_ok_iff.2 ⟨⟨hpath.noNul, hpath.nonempty, hpath.short⟩, ?_⟩
  rw [place, ← hparts] at h
  rw [hraw, place, ← hparts, start, hname.isAbsolute_join, ← start]
  exact follow_of_directory hups hname.leading hshort h

theorem exists_directory_of_locate_ok {l : Location} {found : Option Entry}
    (h : fs.locate (join directory name) = .ok (l, found)) (hup : ".." ∉ rawParts directory) :
    ∃ entries, fs.root.get? (fs.place directory) = some (.directory entries) := by
  obtain ⟨before, hraw, hparts, -⟩ := hname.exists_rawParts_join directory
  have hfollow := (locate_eq_ok_iff.1 h).2
  have hups := hname.not_mem_rawParts_join hup
  rw [hraw] at hfollow hups
  have hdirectory := exists_directory_of_follow_ok hfollow hups
  rwa [hparts, start, hname.isAbsolute_join, ← start, ← place] at hdirectory

end

/-! ## What is spared -/

/-- Paths lead where they led before, as long as the working directory is the same. -/
theorem place_eq_of_working (h : fs'.working = fs.working) (path : String) :
    fs'.place path = fs.place path := by
  rw [place, place, start, start, h]

/-- Nothing there was changed but at a location, in it and on the way to it. -/
structure Spares (l : Location) (fs fs' : FileSystem) : Prop where
  working : fs'.working = fs.working
  elsewhere : ∀ m e, l.Unrelated m → fs.root.get? m = some e → fs'.root.get? m = some e

variable {l : Location}

theorem Spares.refl (l : Location) (fs : FileSystem) : Spares l fs fs :=
  ⟨rfl, fun _ _ _ he => he⟩

theorem Spares.trans {fs'' : FileSystem} (h : Spares l fs fs') (h' : Spares l fs' fs'') :
    Spares l fs fs'' where
  working := h'.working.trans h.working
  elsewhere m e hm he := h'.elsewhere m e hm (h.elsewhere m e hm he)

/-- All that is at a location and in it is kept. -/
structure Keeps (l : Location) (fs fs' : FileSystem) : Prop where
  working : fs'.working = fs.working
  inside : ∀ m e, fs.root.get? (l ++ m) = some e → fs'.root.get? (l ++ m) = some e

theorem Keeps.refl (l : Location) (fs : FileSystem) : Keeps l fs fs :=
  ⟨rfl, fun _ _ he => he⟩

theorem Keeps.trans {fs'' : FileSystem} (h : Keeps l fs fs') (h' : Keeps l fs' fs'') :
    Keeps l fs fs'' where
  working := h'.working.trans h.working
  inside m e he := h'.inside m e (h.inside m e he)

theorem Spares.keeps {k : Location} (h : Spares l fs fs') (hk : l.Unrelated k) :
    Keeps k fs fs' where
  working := h.working
  inside m e he := h.elsewhere (k ++ m) e (by simpa using hk.append [] m) he

/-! ## Removing directories -/

section

variable (hup : ".." ∉ rawParts path)

include hup

theorem removeDirectory_ok (h : fs.removeDirectory path = .ok fs') :
    fs' = { fs with root := fs.root.remove (fs.place path) } := by
  rw [removeDirectory] at h
  cases hlocate : fs.locate path with
  | error fault => simp [hlocate, bind, Except.bind] at h
  | ok found =>
      obtain ⟨l, found⟩ := found
      obtain ⟨-, rfl, -⟩ := locate_ok hlocate hup
      rw [hlocate] at h
      match found, h with
      | some (.directory _), h => cases h; rfl

theorem clear_ok (h : fs.clear path = .ok fs') :
    (fs.exists? path = true ∧ fs' = { fs with root := fs.root.remove (fs.place path) }) ∨
      (fs.exists? path = false ∧ fs' = fs) := by
  rw [clear] at h
  split at h
  next hexists =>
    cases hremove : fs.removeDirectory path with
    | error fault => simp [hremove, Except.mapError] at h
    | ok removed =>
        obtain rfl : removed = fs' := by simpa [hremove, Except.mapError] using h
        exact .inl ⟨hexists, removeDirectory_ok hup hremove⟩
  next hexists =>
    obtain rfl : fs = fs' := by simpa [pure, Except.pure] using h
    exact .inr ⟨by simpa using hexists, rfl⟩

theorem spares_clear (h : fs.clear path = .ok fs') : Spares (fs.place path) fs fs' := by
  rcases clear_ok hup h with ⟨-, rfl⟩ | ⟨-, rfl⟩
  · refine ⟨rfl, fun m e hm he => ?_⟩
    rw [← he]
    exact Entry.get?_remove_of_unrelated hm _
  · exact .refl _ fs'

/-- Nothing is left of a directory that was cleared. -/
theorem get?_of_clear (hpath : Admissible path)
    (hlast : ∀ part ∈ (rawParts path).getLast?, leads part = true) (hne : fs.place path ≠ [])
    (h : fs.clear path = .ok fs') : fs'.root.get? (fs.place path) = none := by
  rcases clear_ok hup h with ⟨-, rfl⟩ | ⟨hexists, rfl⟩
  · exact Entry.get?_remove_self hne _
  · cases hget : fs'.root.get? (fs'.place path) with
    | none => rfl
    | some e => simp [exists?, entry?, locate_of_get? hpath hup hlast hget] at hexists

end

/-! ## Making directories -/

/-- Directories may have been made at a location and on the way to it, and nothing else. -/
structure Makes (l : Location) (fs fs' : FileSystem) : Prop extends Spares l fs fs' where
  there : fs'.root.get? l = fs.root.get? l ∨
    (fs.root.get? l = none ∧ fs'.root.get? l = some (.directory []))

theorem Makes.refl (l : Location) (fs : FileSystem) : Makes l fs fs :=
  ⟨.refl l fs, .inl rfl⟩

theorem Makes.trans {fs'' : FileSystem} (h : Makes l fs fs') (h' : Makes l fs' fs'') :
    Makes l fs fs'' where
  toSpares := h.toSpares.trans h'.toSpares
  there := by
    rcases h.there with hsame | ⟨hnone, hmade⟩
    · rw [← hsame]
      exact h'.there
    · rcases h'.there with hsame' | ⟨hnone', -⟩
      · exact .inr ⟨hnone, hsame'.trans hmade⟩
      · rw [hmade] at hnone'
        cases hnone'

theorem makes_put {k : Location} (hk : k <+: l) (hvacant : fs.root.get? k = none) :
    Makes l fs { fs with root := fs.root.put k (.directory []) } where
  working := rfl
  there := by
    obtain ⟨rest, rfl⟩ := hk
    have hnone : fs.root.get? (k ++ rest) = none := by rw [Entry.get?_append, hvacant]; rfl
    rw [hnone, Entry.get?_append]
    rcases Entry.get?_put_self k fs.root (.directory []) with hput | hput
    · rw [hput]
      exact .inl rfl
    · rw [hput]
      cases rest with
      | nil => exact .inr ⟨rfl, rfl⟩
      | cons name rest => exact .inl rfl
  elsewhere m e hm he := by
    have hunrelated : k.Unrelated m := by
      constructor
      · rintro ⟨rest, rfl⟩
        rw [Entry.get?_append, hvacant] at he
        cases he
      · exact fun hmk => hm.2 (hmk.trans hk)
    rw [← he]
    exact Entry.get?_put_of_unrelated hunrelated _ _

theorem makes_makeDirectory (hup : ".." ∉ rawParts path) (hl : fs.place path <+: l)
    (h : fs.makeDirectory path = .ok fs') : Makes l fs fs' := by
  rw [makeDirectory] at h
  cases hlocate : fs.locate path with
  | error fault => simp [hlocate, bind, Except.bind] at h
  | ok found =>
      obtain ⟨k, _ | e⟩ := found
      · obtain ⟨-, rfl, hvacant⟩ := locate_ok hlocate hup
        rw [hlocate] at h
        cases h
        exact makes_put hl hvacant.symm
      · simp [hlocate, bind, Except.bind, throw, throwThe, MonadExceptOf.throw] at h

theorem makes_makeIfMissing (hup : ".." ∉ rawParts path) (hl : fs.place path <+: l)
    (h : fs.makeIfMissing path = .ok fs') : Makes l fs fs' := by
  rw [makeIfMissing] at h
  split at h
  next fs'' hmade =>
    cases h
    exact makes_makeDirectory hup hl hmade
  next =>
    split at h
    next =>
      cases h
      exact .refl l fs
    next => cases h

theorem place_pathOf {absolute : Bool} {reversed : List String} (hne : reversed ≠ [])
    (h : ∀ part ∈ reversed, IsName part) (fs : FileSystem) :
    fs.place (pathOf absolute reversed) =
      (if absolute then [] else fs.working) ++ reversed.reverse := by
  have hempty : ∀ part ∈ reversed, part ≠ "" := by
    rintro part hpart rfl
    exact absurd (h "" hpart).leading (by decide)
  rw [place, start,
    parts_pathOf absolute hne fun part hpart => ⟨(h part hpart).leading, (h part hpart).noSlash⟩,
    isAbsolute_pathOf absolute hne fun part hpart => ⟨hempty part hpart, (h part hpart).noSlash⟩]

theorem not_mem_rawParts_pathOf {absolute : Bool} {reversed : List String} (hne : reversed ≠ [])
    (h : ∀ part ∈ reversed, IsName part) : ".." ∉ rawParts (pathOf absolute reversed) := by
  rw [rawParts_pathOf absolute hne fun part hpart => (h part hpart).noSlash, List.mem_append,
    List.mem_reverse]
  rintro (hup | hup)
  · cases absolute <;> simp at hup
  · exact (h ".." hup).notUp rfl

theorem makes_makeAlong {absolute : Bool} {reversed : List String}
    (h : ∀ part ∈ reversed, IsName part)
    (hl : (if absolute then [] else fs.working) ++ reversed.reverse <+: l) :
    Makes l fs (makeAlong absolute reversed fs).2 := by
  induction reversed generalizing fs with
  | nil => exact .refl l fs
  | cons part parents ih =>
      have hne : part :: parents ≠ [] := List.cons_ne_nil part parents
      have hup : ".." ∉ rawParts (pathOf absolute (part :: parents)) :=
        not_mem_rawParts_pathOf hne h
      have hfinish {fs' fs'' : FileSystem} (hworking : fs'.working = fs.working)
          (hmade : fs'.makeIfMissing (pathOf absolute (part :: parents)) = .ok fs'') :
          Makes l fs' fs'' := by
        refine makes_makeIfMissing hup ?_ hmade
        rwa [place_pathOf hne h, hworking]
      have hparents : Makes l fs (makeAlong absolute parents fs).2 := by
        refine ih (fun part' hpart => h part' (List.mem_cons_of_mem part hpart)) ?_
        rw [List.reverse_cons, ← List.append_assoc] at hl
        exact (List.prefix_append _ [part]).trans hl
      rw [makeAlong]
      split
      next =>
        split
        next fs' hmade =>
          rw [hmade] at hparents
          dsimp only
          split
          next hlast => exact hparents.trans (hfinish hparents.working hlast)
          next => exact hparents
        next => exact hparents
      next =>
        dsimp only
        split
        next hlast => exact hfinish rfl hlast
        next => exact .refl l fs

theorem makes_ensure (fs : FileSystem) (hup : ".." ∉ rawParts path) :
    Makes (fs.place path) fs (fs.ensure path).2 := by
  have hnames : ∀ part ∈ (parts path).reverse, IsName part := by
    intro part hpart
    obtain ⟨hraw, hleads⟩ := List.mem_filter.1 (List.mem_reverse.1 hpart)
    exact ⟨hleads, fun hpart => hup (hpart ▸ hraw), noSlash_of_mem_rawParts hraw⟩
  have hdirectories : Makes (fs.place path) fs (fs.makeDirectories path).2 := by
    rw [makeDirectories]
    split
    next => exact .refl _ fs
    next =>
      refine makes_makeAlong hnames ?_
      rw [List.reverse_reverse]
      exact List.prefix_rfl
  rw [ensure]
  split
  next => exact .refl _ fs
  next => exact hdirectories

/-- A directory that is there need not be made. -/
theorem ensure_of_get? {e : Entry} (hpath : Admissible path) (hup : ".." ∉ rawParts path)
    (hlast : ∀ part ∈ (rawParts path).getLast?, leads part = true)
    (h : fs.root.get? (fs.place path) = some e) : fs.ensure path = (none, fs) := by
  have hexists : fs.exists? path = true := by
    rw [exists?, entry?, locate_of_get? hpath hup hlast h]
    rfl
  rw [ensure, if_pos hexists]

/-! ## Writing files -/

theorem Admissible.directory {name : String} (h : Admissible (join path name)) (hname : IsName name)
    (hne : path ≠ "") : Admissible path := by
  obtain ⟨rest, hrest⟩ := hname.toList_prefix_join path
  have htext : join path name = path ++ String.ofList rest := by
    apply String.toList_inj.1
    simp [hrest]
  refine ⟨?_, ?_, ?_, ?_⟩
  · have hnul := h.noNul
    rw [String.contains_char_eq, decide_eq_false_iff_not, htext] at hnul
    rw [String.contains_char_eq, decide_eq_false_iff_not]
    exact fun hmem => hnul (by simp [hmem])
  · simpa using hne
  · have hshort := h.short
    rw [htext, String.utf8ByteSize_append] at hshort
    omega
  · intro part hpart
    refine h.partsShort part ?_
    rw [hname.parts_join]
    exact List.mem_append_left _ hpart

/-- A file was written in a directory, which may have been made, and nothing else was changed. -/
structure Writes (directory name text : String) (fs fs' : FileSystem) : Prop
    extends Spares (fs.place directory) fs fs' where
  admissible : Admissible (join directory name)
  there : ∃ entries, (fs.root.get? (fs.place directory) = some (.directory entries) ∨
      (fs.root.get? (fs.place directory) = none ∧ entries = [])) ∧
    fs'.root.get? (fs.place directory) =
      some ((Entry.directory entries).put [name] (.file (.text text)))

theorem writeText_ok {text : String} (hup : ".." ∉ rawParts path)
    (h : fs.writeText path text = .ok fs') :
    fs' = { fs with root := fs.root.put (fs.place path) (.file (.text text)) } ∧
      ∃ found, fs.locate path = .ok (fs.place path, found) := by
  rw [writeText] at h
  cases hlocate : fs.locate path with
  | error fault => simp [hlocate, bind, Except.bind] at h
  | ok found =>
      obtain ⟨l, found⟩ := found
      obtain ⟨-, rfl, -⟩ := locate_ok hlocate hup
      refine ⟨?_, found, rfl⟩
      rw [hlocate] at h
      match found, h with
      | none, h => cases h; rfl
      | some (.file _), h => cases h; rfl

/-- A file is put in a directory that has just been made or was there. -/
theorem writes_put {directory name text : String} (h : Makes (fs.place directory) fs fs')
    {entries : List (String × Entry)}
    (hentries : fs'.root.get? (fs.place directory) = some (.directory entries))
    (hpath : Admissible (join directory name)) :
    Writes directory name text fs
      { fs' with root := fs'.root.put (fs.place directory ++ [name]) (.file (.text text)) } where
  working := h.working
  elsewhere m e hm he := by
    have hunrelated : Location.Unrelated (fs.place directory ++ [name]) m := by
      simpa using hm.append [name] []
    rw [← h.elsewhere m e hm he]
    exact Entry.get?_put_of_unrelated hunrelated _ _
  admissible := hpath
  there := by
    refine ⟨entries, ?_, Entry.get?_put_append hentries _⟩
    rcases h.there with hsame | ⟨hnone, hmade⟩
    · exact .inl (hsame.symm.trans hentries)
    · rw [hentries, Option.some.injEq, Entry.directory.injEq] at hmade
      exact .inr ⟨hnone, hmade⟩

theorem writeIn_cases (fs : FileSystem) (directory name text : String) :
    (∃ made fs', fs.ensure directory = (none, made) ∧
        made.writeText (join directory name) text = .ok fs' ∧
        fs.writeIn directory name text = (none, fs')) ∨
      (∃ fault, fs.writeIn directory name text = (some fault, (fs.ensure directory).2)) := by
  cases hensure : fs.ensure directory with
  | mk fault made =>
      cases fault with
      | some fault => exact .inr ⟨fault, by rw [writeIn, hensure]⟩
      | none =>
          cases hwrite : made.writeText (join directory name) text with
          | error cause =>
              refine .inr ⟨⟨.writeFile, join directory name, cause⟩, ?_⟩
              simp only [writeIn, hensure, hwrite]
          | ok written =>
              exact .inl ⟨made, written, rfl, hwrite, by simp only [writeIn, hensure, hwrite]⟩

/-- It makes no difference whether a directory is made first. -/
theorem writeIn_of_ensure {made : FileSystem} {directory : String}
    (h : fs.ensure directory = (none, made)) (hmade : made.ensure directory = (none, made))
    (name text : String) : fs.writeIn directory name text = made.writeIn directory name text := by
  simp only [writeIn, h, hmade]

section

variable {directory name text : String} (hup : ".." ∉ rawParts directory) (hname : IsName name)

include hup hname

theorem writes_writeIn (h : fs.writeIn directory name text = (none, fs')) :
    Writes directory name text fs fs' := by
  rcases writeIn_cases fs directory name text with
    ⟨made, written, hensure, hwrite, hok⟩ | ⟨fault, hfault⟩
  · obtain rfl : written = fs' := by simpa [hok] using h
    have hmakes := makes_ensure fs hup
    rw [hensure] at hmakes
    have hups := hname.not_mem_rawParts_join hup
    obtain ⟨rfl, found, hlocate⟩ := writeText_ok hups hwrite
    obtain ⟨entries, hentries⟩ := exists_directory_of_locate_ok hname hlocate hup
    rw [place_eq_of_working hmakes.working] at hentries
    rw [place_join hname, place_eq_of_working hmakes.working]
    exact writes_put hmakes hentries (locate_ok hlocate hups).1
  · simp [hfault] at h

/-- Whether or not the file could be written. -/
theorem spares_writeIn : Spares (fs.place directory) fs (fs.writeIn directory name text).2 := by
  rcases writeIn_cases fs directory name text with ⟨made, fs', -, -, hok⟩ | ⟨fault, hfault⟩
  · rw [hok]
    exact (writes_writeIn hup hname hok).toSpares
  · rw [hfault]
    exact (makes_ensure fs hup).toSpares

/-- A directory that is missing is made in the one that is there, if its path is written without
detours. -/
theorem ensure_join {entries : List (String × Entry)} (hpath : Admissible (join directory name))
    (hplain : pathOf (isAbsolute (join directory name)) (parts (join directory name)).reverse =
      join directory name)
    (h : fs.root.get? (fs.place directory) = some (.directory entries))
    (hmissing : entries.lookup name = none) :
    fs.ensure (join directory name) = (none,
      { fs with root := fs.root.put (fs.place directory ++ [name]) (.directory []) }) := by
  have hlocate := locate_join hname hpath hup h
  rw [hmissing] at hlocate
  have hparts : (parts (join directory name)).reverse = name :: (parts directory).reverse := by
    simp [hname.parts_join]
  rw [hparts] at hplain
  have hmake : fs.makeDirectory (join directory name) = .ok
      { fs with root := fs.root.put (fs.place directory ++ [name]) (.directory []) } := by
    rw [makeDirectory, hlocate]
    rfl
  simp [ensure, exists?, entry?, hlocate, makeDirectories, hpath.noNul, hparts, makeAlong, hplain,
    makeIfMissing, hmake, pure, Except.pure]

/-- In a directory that is there, a file is written unless a directory is in the way. -/
theorem writeIn_of_directory {entries : List (String × Entry)}
    (hensure : fs.ensure directory = (none, fs)) (hpath : Admissible (join directory name))
    (h : fs.root.get? (fs.place directory) = some (.directory entries))
    (hvacant : ∀ inside, entries.lookup name ≠ some (.directory inside)) :
    fs.writeIn directory name text = (none,
      { fs with root := fs.root.put (fs.place directory ++ [name]) (.file (.text text)) }) := by
  have hlocate := locate_join hname hpath hup h
  cases hlookup : entries.lookup name with
  | none =>
      simp [writeIn, hensure, writeText, hlocate, hlookup, bind, Except.bind, pure, Except.pure]
  | some e =>
      cases e with
      | file content =>
          simp [writeIn, hensure, writeText, hlocate, hlookup, bind, Except.bind, pure,
            Except.pure]
      | directory inside => exact absurd hlookup (hvacant inside)

/-- A file that was written is read back. -/
theorem readText_join (hpath : Admissible (join directory name))
    (h : fs.root.get? (fs.place directory ++ [name]) = some (.file (.text text))) :
    fs.readText (join directory name) = .ok text := by
  rw [← place_join hname] at h
  have hlocate := locate_of_get? hpath (hname.not_mem_rawParts_join hup)
    (hname.leads_getLast?_rawParts_join directory) h
  rw [readText, hlocate]
  rfl

end

theorem appendText_of_locate (text : String) {l : Location} {content : Content}
    (h : fs.locate path = .ok (l, some (.file content))) :
    fs.appendText path text =
      .ok { fs with root := fs.root.put l (.file (content.append text)) } := by
  rw [appendText, h]
  rfl

/-! ## Names in the working directory -/

theorem join_empty (name : String) : join "" name = name := by
  simp [join]

theorem place_empty (fs : FileSystem) : fs.place "" = fs.working := by
  have habsolute : isAbsolute "" = false := by decide +kernel
  have hparts : parts "" = [] := by decide +kernel
  simp [place, start, habsolute, hparts]

section

variable {name : String} (hname : IsName name) (hpath : Admissible name)

include hname hpath

theorem locate_name {entries : List (String × Entry)}
    (h : fs.root.get? fs.working = some (.directory entries)) :
    fs.locate name = .ok (fs.working ++ [name], entries.lookup name) := by
  rw [← join_empty name] at hpath
  rw [← place_empty fs] at h
  have hlocate := locate_join hname hpath (by decide +kernel) h
  rwa [join_empty, place_empty] at hlocate

theorem readText_name {text : String}
    (h : fs.root.get? (fs.working ++ [name]) = some (.file (.text text))) :
    fs.readText name = .ok text := by
  rw [← join_empty name] at hpath
  rw [← place_empty fs] at h
  have hread := readText_join (by decide +kernel) hname hpath h
  rwa [join_empty] at hread

end

end Bindery.FileSystem
