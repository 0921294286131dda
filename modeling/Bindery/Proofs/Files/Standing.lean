import Bindery.Proofs.Files.Confined

/-!
# Files that stand

What is written in a directory is read back (`readText_writeIn`), and it stands whatever is written
there under another name (`readText_writeIn_of_ne`). The path of the directory may lead up.
-/

namespace Bindery.FileSystem

open Bindery.Path Entry

/-! ## Following a path part by part -/

/-- Where a part leads from a directory. -/
def onward (l : Location) (part : String) : Location :=
  if leads part = false then l else if part = ".." then l.dropLast else l ++ [part]

theorem onward_of_ne {part : String} {l : Location} (hleads : leads part = true)
    (hup : part ≠ "..") : onward l part = l ++ [part] := by
  rw [onward, hleads, if_neg (by decide), if_neg hup]

section

variable {root root' : Entry} {part : String} {ps : List String} {l l' : Location}
  {found : Option Entry}

theorem kindAt_dropLast (h : root.kindAt l = some .directory) :
    root.kindAt l.dropLast = some .directory := by
  rcases List.eq_nil_or_concat' l with rfl | ⟨before, name, rfl⟩
  · exact h
  · rw [List.dropLast_concat]
    exact kindAt_eq_directory_of_append (List.cons_ne_nil name []) (by simp [h])

theorem directory_of_follow_cons
    (h : follow root (part :: ps) l (root.get? l) = .ok (l', found)) :
    root.kindAt l = some .directory := by
  rw [Entry.kindAt]
  cases hget : root.get? l with
  | none =>
      rw [hget] at h
      cases h
  | some e =>
      cases e with
      | file content =>
          rw [hget] at h
          cases h
      | directory entries => rfl

theorem follow_cons (h : root.kindAt l = some .directory) :
    follow root (part :: ps) l (root.get? l) =
      if nameLimit < part.utf8ByteSize then .error .nameTooLong
      else follow root ps (onward l part) (root.get? (onward l part)) := by
  obtain ⟨entries, hget⟩ := kindAt_eq_directory_iff.1 h
  have hlookup : root.get? (l ++ [part]) = entries.lookup part := by
    rw [Entry.get?_concat, hget, Option.bind_some, Entry.get?_singleton]
  rw [hget, follow]
  by_cases hleads : leads part = true
  · have hpart : ¬ (decide (part = "") || decide (part = ".")) = true := by
      simpa [leads] using hleads
    rw [if_neg hpart]
    by_cases hup : part = ".."
    · subst hup
      rw [if_pos rfl, if_neg (by decide)]
      rfl
    · rw [if_neg hup, onward_of_ne hleads hup, hlookup]
      rfl
  · have hpart : part = "" ∨ part = "." := by
      simpa [leads, or_iff_not_imp_left] using hleads
    have hshort : ¬ nameLimit < part.utf8ByteSize := by
      rcases hpart with rfl | rfl
      · decide
      · decide
    rw [if_pos (by simpa using hpart), if_neg hshort, onward, if_pos (by simpa using hleads), hget]

/-- As long as directories stay, a path leads where it led. -/
theorem follow_of_kept
    (hkept : ∀ l, root.kindAt l = some .directory → root'.kindAt l = some .directory)
    (h : follow root ps l (root.get? l) = .ok (l', found)) :
    found = root.get? l' ∧ follow root' ps l (root'.get? l) = .ok (l', root'.get? l') := by
  induction ps generalizing l with
  | nil =>
      cases h
      exact ⟨rfl, rfl⟩
  | cons part ps ih =>
      have hdirectory := directory_of_follow_cons h
      rw [follow_cons hdirectory] at h
      rw [follow_cons (hkept l hdirectory)]
      split_ifs at h ⊢
      exact ih h

/-- What is missing is missing in a directory. -/
theorem exists_concat_of_follow_none (hstart : root.kindAt l ≠ none)
    (h : follow root ps l (root.get? l) = .ok (l', none)) :
    ∃ d name, l' = d ++ [name] ∧ root.kindAt d = some .directory := by
  induction ps generalizing l with
  | nil =>
      obtain ⟨-, hnone⟩ := Prod.mk.inj (Except.ok.inj h)
      exact absurd (kindAt_eq_none_iff.2 hnone) hstart
  | cons part ps ih =>
      have hdirectory := directory_of_follow_cons h
      rw [follow_cons hdirectory] at h
      split_ifs at h
      by_cases hnext : root.kindAt (onward l part) = none
      · cases ps with
        | nil =>
            obtain ⟨rfl, -⟩ := Prod.mk.inj (Except.ok.inj h)
            rw [onward] at hnext ⊢
            split_ifs at hnext ⊢
            · simp [hdirectory] at hnext
            · simp [kindAt_dropLast hdirectory] at hnext
            · exact ⟨l, part, rfl, hdirectory⟩
        | cons next ps => simp [directory_of_follow_cons h] at hnext
      · exact ih hnext h

end

variable {fs fs' : FileSystem} {path directory name name' text text' : String}

theorem rawParts_ne_nil (path : String) : rawParts path ≠ [] := by
  simp [rawParts, Text.pieces, Text.splitOn_ne_nil]

theorem directory_start_of_locate {l : Location} {found : Option Entry}
    (h : fs.locate path = .ok (l, found)) : fs.kindAt (fs.start path) = some .directory := by
  obtain ⟨part, ps, hparts⟩ := List.exists_cons_of_ne_nil (rawParts_ne_nil path)
  have hfollow := (locate_eq_ok_iff.1 h).2
  rw [hparts] at hfollow
  exact directory_of_follow_cons hfollow

theorem locate_of_kept (hworking : fs'.working = fs.working)
    (hkept : ∀ l, fs.kindAt l = some .directory → fs'.kindAt l = some .directory)
    {l : Location} {found : Option Entry} (h : fs.locate path = .ok (l, found)) :
    found = fs.root.get? l ∧ fs'.locate path = .ok (l, fs'.root.get? l) := by
  obtain ⟨hpath, hfollow⟩ := locate_eq_ok_iff.1 h
  obtain ⟨hfound, hfollow'⟩ := follow_of_kept hkept hfollow
  have hstart : fs'.start path = fs.start path := by rw [start, start, hworking]
  exact ⟨hfound, locate_eq_ok_iff.2 ⟨hpath, by rw [hstart]; exact hfollow'⟩⟩

theorem readText_eq_ok_iff : fs.readText path = .ok text ↔
    ∃ l, fs.locate path = .ok (l, fs.root.get? l) ∧ fs.kindAt l = some (.file (.text text)) := by
  rw [readText]
  cases hlocate : fs.locate path with
  | error fault => simp [bind, Except.bind]
  | ok r =>
      obtain ⟨l, found⟩ := r
      obtain ⟨rfl, -⟩ := locate_of_kept rfl (fun _ hl => hl) hlocate
      have hl : (∃ m, Except.ok (ε := OsFault) (l, fs.root.get? l) = .ok (m, fs.root.get? m) ∧
          fs.kindAt m = some (.file (.text text))) ↔ fs.kindAt l = some (.file (.text text)) := by
        constructor
        · rintro ⟨m, hm, hkind⟩
          obtain ⟨rfl, -⟩ := Prod.mk.inj (Except.ok.inj hm)
          exact hkind
        · exact fun hkind => ⟨l, rfl, hkind⟩
      rw [hl, FileSystem.kindAt, Entry.kindAt]
      rcases fs.root.get? l with _ | (content | entries)
      · simp [bind, Except.bind, throw, throwThe, MonadExceptOf.throw]
      · cases content <;>
          simp [bind, Except.bind, pure, Except.pure, throw, throwThe, MonadExceptOf.throw]
      · simp [bind, Except.bind, throw, throwThe, MonadExceptOf.throw]

/-! ## Making directories -/

/-- What was there is still what it was. -/
structure Grows (fs fs' : FileSystem) : Prop where
  working : fs'.working = fs.working
  kindAt : ∀ l k, fs.kindAt l = some k → fs'.kindAt l = some k

theorem Grows.refl (fs : FileSystem) : Grows fs fs :=
  ⟨rfl, fun _ _ h => h⟩

theorem Grows.trans {fs'' : FileSystem} (h : Grows fs fs') (h' : Grows fs' fs'') :
    Grows fs fs'' :=
  ⟨h'.working.trans h.working, fun l k hl => h'.kindAt l k (h.kindAt l k hl)⟩

theorem Grows.readText (h : Grows fs fs') (hread : fs.readText path = .ok text) :
    fs'.readText path = .ok text := by
  obtain ⟨l, hlocate, hkind⟩ := readText_eq_ok_iff.1 hread
  obtain ⟨-, hlocate'⟩ := locate_of_kept h.working (fun l => h.kindAt l _) hlocate
  exact readText_eq_ok_iff.2 ⟨l, hlocate', h.kindAt l _ hkind⟩

theorem Puts.grows {l : Location} {k : Kind} (h : Puts l k fs fs') (hvacant : fs.kindAt l = none) :
    Grows fs fs' where
  working := h.working
  kindAt m k' hm := by
    rw [h.kindAt, if_neg, hm]
    rintro rfl
    simp [hvacant] at hm

theorem grows_makeDirectory (h : fs.makeDirectory path = .ok fs') : Grows fs fs' := by
  rw [makeDirectory] at h
  cases hlocate : fs.locate path with
  | error fault => simp [hlocate, bind, Except.bind] at h
  | ok r =>
      obtain ⟨l, _ | e⟩ := r
      · rw [hlocate] at h
        cases h
        obtain ⟨hfound, -⟩ := locate_of_kept rfl (fun _ hl => hl) hlocate
        have hvacant : fs.kindAt l = none := kindAt_eq_none_iff.2 hfound.symm
        have hstart : fs.kindAt (fs.start path) ≠ none := by
          simp [directory_start_of_locate hlocate]
        obtain ⟨d, name, rfl, hd⟩ :=
          exists_concat_of_follow_none hstart (locate_eq_ok_iff.1 hlocate).2
        have hput := Entry.kindAt_put hd (ne_of_eq_of_ne hvacant (by simp)) .directory
        exact Puts.grows ⟨rfl, hput⟩ hvacant
      · simp [hlocate, bind, Except.bind, throw, throwThe, MonadExceptOf.throw] at h

theorem grows_makeIfMissing (h : fs.makeIfMissing path = .ok fs') : Grows fs fs' := by
  rw [makeIfMissing] at h
  split at h
  next made hmade =>
    cases h
    exact grows_makeDirectory hmade
  next =>
    split_ifs at h
    cases h
    exact .refl fs

theorem grows_makeLast (path : String) (fs : FileSystem) : Grows fs (makeLast path fs).2 := by
  rw [makeLast]
  cases hmade : fs.makeIfMissing path with
  | ok made => exact grows_makeIfMissing hmade
  | error fault => exact .refl fs

theorem grows_makeAlong (absolute : Bool) (reversed : List String) (fs : FileSystem) :
    Grows fs (makeAlong absolute reversed fs).2 := by
  induction reversed generalizing fs with
  | nil => exact .refl fs
  | cons part parents ih =>
      by_cases hmissing : fs.makeDirectory (pathOf absolute (part :: parents)) = .error .notFound
      · rw [makeAlong_of_notFound hmissing]
        have hparents := ih fs
        cases hmade : makeAlong absolute parents fs with
        | mk fault made =>
            rw [hmade] at hparents
            cases fault with
            | none => exact hparents.trans (grows_makeLast _ made)
            | some fault => exact hparents
      · rw [makeAlong_of_ne hmissing]
        exact grows_makeLast _ fs

theorem grows_ensure (path : String) (fs : FileSystem) : Grows fs (fs.ensure path).2 := by
  have hdirectories : Grows fs (fs.makeDirectories path).2 := by
    rw [makeDirectories]
    split
    next => exact .refl fs
    next => exact grows_makeAlong _ _ fs
  rw [ensure]
  split
  next => exact .refl fs
  next => exact hdirectories

/-! ## Writing in a directory -/

/-- The names of a directory stand behind the same parts. -/
theorem exists_before (directory : String) :
    ∃ before, ∀ {name}, IsName name → rawParts (join directory name) = before ++ [name] := by
  rcases join_front directory with rfl | ⟨front, -, hjoin⟩ | ⟨-, hjoin⟩
  · exact ⟨[], fun {name} h => by simp [join, rawParts_name h.noSlash]⟩
  · exact ⟨rawParts front, fun {name} h => by
      rw [hjoin h, rawParts_append, rawParts_name h.noSlash]⟩
  · exact ⟨rawParts directory, fun {name} h => by
      rw [hjoin h, rawParts_append, rawParts_name h.noSlash]⟩

section

variable (hname : IsName name)

include hname

/-- A name is looked for in the directory that the parts before it lead to. -/
theorem locate_join_ok {before : List String}
    (hbefore : rawParts (join directory name) = before ++ [name]) {l : Location}
    {found : Option Entry} (h : fs.locate (join directory name) = .ok (l, found)) :
    ∃ d, follow fs.root before (fs.start directory) (fs.root.get? (fs.start directory)) =
        .ok (d, fs.root.get? d) ∧
      fs.kindAt d = some .directory ∧ l = d ++ [name] := by
  obtain ⟨-, hfollow⟩ := locate_eq_ok_iff.1 h
  rw [hbefore, start_join hname, follow_append] at hfollow
  cases hfront : follow fs.root before (fs.start directory)
      (fs.root.get? (fs.start directory)) with
  | error fault => simp [hfront, bind, Except.bind] at hfollow
  | ok r =>
      obtain ⟨d, e⟩ := r
      obtain ⟨rfl, -⟩ := follow_of_kept (fun _ hl => hl) hfront
      rw [hfront] at hfollow
      have hlast : follow fs.root [name] d (fs.root.get? d) = .ok (l, found) := hfollow
      have hd := directory_of_follow_cons hlast
      rw [follow_cons hd, onward_of_ne hname.leading hname.notUp] at hlast
      split_ifs at hlast
      obtain ⟨rfl, -⟩ := Prod.mk.inj (Except.ok.inj hlast)
      exact ⟨d, rfl, hd, rfl⟩

/-- A file was written where its path leads, and nothing else was changed. -/
theorem puts_writeText (h : fs.writeText (join directory name) text = .ok fs') :
    ∃ l, fs.locate (join directory name) = .ok (l, fs.root.get? l) ∧
      fs.kindAt l ≠ some .directory ∧ Puts l (.file (.text text)) fs fs' := by
  obtain ⟨before, hbefore⟩ := exists_before directory
  rw [writeText] at h
  cases hlocate : fs.locate (join directory name) with
  | error fault => simp [hlocate, bind, Except.bind] at h
  | ok r =>
      obtain ⟨l, found⟩ := r
      obtain ⟨d, -, hd, rfl⟩ := locate_join_ok hname (hbefore hname) hlocate
      obtain ⟨rfl, -⟩ := locate_of_kept rfl (fun _ hl => hl) hlocate
      rw [hlocate] at h
      have hvacant : fs.kindAt (d ++ [name]) ≠ some .directory := by
        intro hkind
        obtain ⟨entries, hentries⟩ := kindAt_eq_directory_iff.1 hkind
        rw [hentries] at h
        cases h
      have hput := Entry.kindAt_put hd hvacant (.file (.text text))
      refine ⟨d ++ [name], rfl, hvacant, ?_⟩
      cases hget : fs.root.get? (d ++ [name]) with
      | none =>
          rw [hget] at h
          cases h
          exact ⟨rfl, hput⟩
      | some e =>
          cases e with
          | file content =>
              rw [hget] at h
              cases h
              exact ⟨rfl, hput⟩
          | directory entries =>
              rw [hget] at h
              cases h

end

theorem Puts.kept {l : Location} {k : Kind} (h : Puts l k fs fs')
    (hvacant : fs.kindAt l ≠ some .directory) (m : Location)
    (hm : fs.kindAt m = some .directory) : fs'.kindAt m = some .directory := by
  rw [h.kindAt, if_neg, hm]
  rintro rfl
  exact hvacant hm

theorem readText_writeIn (hname : IsName name)
    (h : fs.writeIn directory name text = (none, fs')) :
    fs'.readText (join directory name) = .ok text := by
  rcases writeIn_cases fs directory name text with
    ⟨made, written, -, hwrite, hok⟩ | ⟨fault, hfault⟩
  · obtain rfl : written = fs' := by simpa [hok] using h
    obtain ⟨l, hlocate, hvacant, hputs⟩ := puts_writeText hname hwrite
    obtain ⟨-, hlocate'⟩ := locate_of_kept hputs.working (hputs.kept hvacant) hlocate
    exact readText_eq_ok_iff.2 ⟨l, hlocate', by rw [hputs.kindAt, if_pos rfl]⟩
  · simp [hfault] at h

/-- Whether or not the other file could be written. -/
theorem readText_writeIn_of_ne (hname : IsName name) (hname' : IsName name') (hne : name ≠ name')
    (h : fs.readText (join directory name) = .ok text) :
    (fs.writeIn directory name' text').2.readText (join directory name) = .ok text := by
  have hgrown := (grows_ensure directory fs).readText h
  rcases writeIn_cases fs directory name' text' with
    ⟨made, written, hensure, hwrite, hok⟩ | ⟨fault, hfault⟩
  · rw [hensure] at hgrown
    rw [hok]
    obtain ⟨before, hbefore⟩ := exists_before directory
    obtain ⟨l, hlocate, hkind⟩ := readText_eq_ok_iff.1 hgrown
    obtain ⟨l', hlocate', hvacant, hputs⟩ := puts_writeText hname' hwrite
    obtain ⟨d, hd, -, rfl⟩ := locate_join_ok hname (hbefore hname) hlocate
    obtain ⟨d', hd', -, rfl⟩ := locate_join_ok hname' (hbefore hname') hlocate'
    obtain ⟨rfl, -⟩ := Prod.mk.inj (Except.ok.inj (hd.symm.trans hd'))
    obtain ⟨-, hlocate⟩ := locate_of_kept hputs.working (hputs.kept hvacant) hlocate
    refine readText_eq_ok_iff.2 ⟨d ++ [name], hlocate, ?_⟩
    rw [hputs.kindAt, if_neg (by simpa using hne), hkind]
  · rw [hfault]
    exact hgrown

end Bindery.FileSystem
