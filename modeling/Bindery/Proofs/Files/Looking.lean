import Bindery.Proofs.Files.Kind
import Bindery.Proofs.Files.Operations

/-!
# What paths lead to

`lookAt_eq`: what is found by a path, from what is at the locations on its way. Names are given
from the last to the first, as directories are made.
-/

namespace Bindery.FileSystem

open Bindery.Path Entry

/-! ## Following names -/

/-- What a name is in, as far as it can be looked for there. -/
def lookIn (k : Option Kind) (name : String) (found : Option Kind) :
    Except OsFault (Option Kind) :=
  match k with
  | none => .error .notFound
  | some (.file _) => .error .notADirectory
  | some .directory => if nameLimit < name.utf8ByteSize then .error .nameTooLong else .ok found

/-- What names lead to, one after the other. -/
def look (fs : FileSystem) (base : Location) : List String → Except OsFault (Option Kind)
  | [] => .ok (fs.kindAt base)
  | name :: before =>
    look fs base before >>= fun k => lookIn k name (fs.kindAt (base ++ (name :: before).reverse))

variable {fs fs' : FileSystem} {base : Location} {reversed : List String}

/-- What was found was looked for in a directory, under a short name. -/
theorem look_cons_ok {name : String} {before : List String} {k : Option Kind}
    (h : fs.look base (name :: before) = .ok k) :
    fs.look base before = .ok (some .directory) ∧ name.utf8ByteSize ≤ nameLimit ∧
      k = fs.kindAt (base ++ (name :: before).reverse) := by
  rw [look] at h
  cases hbefore : fs.look base before with
  | error fault => simp [hbefore, bind, Except.bind] at h
  | ok inside =>
      simp only [hbefore, bind, Except.bind, lookIn] at h
      split at h
      next => cases h
      next => cases h
      next =>
        split_ifs at h with hlong
        exact ⟨rfl, Nat.not_lt.1 hlong, (Except.ok.inj h).symm⟩

theorem look_ok {k : Option Kind} (h : fs.look base reversed = .ok k) :
    k = fs.kindAt (base ++ reversed.reverse) := by
  cases reversed with
  | nil => simpa [look, eq_comm] using h
  | cons name before => exact (look_cons_ok h).2.2

theorem short_of_look {k : Option Kind} (h : fs.look base reversed = .ok k) :
    ∀ part ∈ reversed, part.utf8ByteSize ≤ nameLimit := by
  induction reversed generalizing k with
  | nil => simp
  | cons name before ih =>
      obtain ⟨hbefore, hname, -⟩ := look_cons_ok h
      exact List.forall_mem_cons.2 ⟨hname, ih hbefore⟩

theorem look_congr
    (h : ∀ q, q <:+ reversed → fs'.kindAt (base ++ q.reverse) = fs.kindAt (base ++ q.reverse)) :
    fs'.look base reversed = fs.look base reversed := by
  induction reversed with
  | nil => simpa [look] using h [] List.suffix_rfl
  | cons name before ih =>
      rw [look, look, ih fun q hq => h q (hq.trans (List.suffix_cons name before)),
        h _ List.suffix_rfl]

theorem kindAt_of_append {name : String} {before : List String}
    (h : fs.kindAt (base ++ (name :: before).reverse) ≠ none) :
    fs.kindAt (base ++ before.reverse) = some .directory := by
  refine kindAt_eq_directory_of_append (List.cons_ne_nil name []) ?_
  rwa [List.append_assoc, ← List.reverse_cons]

/-- Where something is, short names lead. -/
theorem look_of_kindAt {k : Kind} (hshort : ∀ name ∈ reversed, name.utf8ByteSize ≤ nameLimit)
    (h : fs.kindAt (base ++ reversed.reverse) = some k) :
    fs.look base reversed = .ok (some k) := by
  induction reversed generalizing k with
  | nil => simpa [look] using h
  | cons name before ih =>
      obtain ⟨hname, hbefore⟩ := List.forall_mem_cons.1 hshort
      have hdirectory := kindAt_of_append (ne_of_eq_of_ne h (Option.some_ne_none k))
      rw [look, ih hbefore hdirectory, h]
      simp [lookIn, bind, Except.bind, Nat.not_lt.2 hname]

theorem follow_append (root : Entry) (ps qs : List String) (l : Location) (e : Option Entry) :
    follow root (ps ++ qs) l e = follow root ps l e >>= fun r => follow root qs r.1 r.2 := by
  induction ps generalizing l e with
  | nil => rfl
  | cons part ps ih =>
      cases e with
      | none => rfl
      | some e =>
          cases e with
          | file content => rfl
          | directory entries =>
              rw [List.cons_append, follow, follow]
              split_ifs
              · exact ih l _
              · exact ih _ _
              · rfl
              · exact ih _ _

/-- Parts that lead nowhere make no difference before a name. -/
theorem follow_concat (root : Entry) {ps : List String} {name : String} (l : Location)
    (hup : ".." ∉ ps) :
    follow root (ps ++ [name]) l (root.get? l) =
      follow root (ps.filter leads ++ [name]) l (root.get? l) := by
  induction ps generalizing l with
  | nil => rfl
  | cons part ps ih =>
      obtain ⟨hpart, hups⟩ := List.ne_and_not_mem_of_not_mem_cons hup
      by_cases hleads : leads part = true
      · rw [List.filter_cons_of_pos hleads]
        cases hget : root.get? l with
        | none => rfl
        | some d =>
            cases d with
            | file content => rfl
            | directory entries =>
                have hlookup : entries.lookup part = root.get? (l ++ [part]) := by
                  rw [Entry.get?_concat, hget, Option.bind_some, Entry.get?_singleton]
                have hskip : ¬ (decide (part = "") || decide (part = ".")) = true := by
                  simpa [leads] using hleads
                rw [List.cons_append, List.cons_append, follow, follow, if_neg hskip, if_neg hskip,
                  if_neg (Ne.symm hpart), if_neg (Ne.symm hpart), hlookup, ih (l ++ [part]) hups]
      · rw [List.filter_cons_of_neg hleads, ← ih l hups]
        have hskip : (decide (part = "") || decide (part = ".")) = true := by
          simpa [leads, or_iff_not_imp_left] using hleads
        cases hget : root.get? l with
        | none => cases ps <;> rfl
        | some d =>
            cases d with
            | file content => cases ps <;> rfl
            | directory entries => rw [List.cons_append, follow, if_pos hskip]

theorem follow_eq_look (hnames : ∀ name ∈ reversed, leads name = true) (hup : ".." ∉ reversed) :
    (follow fs.root reversed.reverse base (fs.root.get? base)).map (fun r => r.2.map kind) =
      fs.look base reversed := by
  induction reversed with
  | nil => rfl
  | cons name before ih =>
      obtain ⟨hname, hbefore⟩ := List.forall_mem_cons.1 hnames
      obtain ⟨hne, hups⟩ := List.ne_and_not_mem_of_not_mem_cons hup
      have hfilter : before.reverse.filter leads = before.reverse :=
        List.filter_eq_self.2 fun part hpart => hbefore part (List.mem_reverse.1 hpart)
      rw [List.reverse_cons, follow_append, look, ← ih hbefore hups]
      cases hfollow : follow fs.root before.reverse base (fs.root.get? base) with
      | error fault => rfl
      | ok r =>
          obtain ⟨l, found⟩ := r
          obtain ⟨rfl, rfl, -⟩ := follow_ok hfollow (mt List.mem_reverse.1 hups)
          rw [hfilter]
          have hskip : ¬ (decide (name = "") || decide (name = ".")) = true := by
            simpa [leads] using hname
          cases hget : fs.root.get? (base ++ before.reverse) with
          | none => rfl
          | some e =>
              cases e with
              | file content => rfl
              | directory entries =>
                  have hlookup : fs.kindAt (base ++ (name :: before).reverse) =
                      (entries.lookup name).map kind := by
                    rw [kindAt, Entry.kindAt, List.reverse_cons, ← List.append_assoc,
                      Entry.get?_concat, hget, Option.bind_some, Entry.get?_singleton]
                  rw [hlookup]
                  simp only [bind, Except.bind, Except.map, follow, if_neg hskip,
                    if_neg (Ne.symm hne), lookIn, Option.map_some, kind_directory]
                  by_cases hlong : nameLimit < name.utf8ByteSize
                  · rw [if_pos hlong, if_pos hlong]
                    rfl
                  · rw [if_neg hlong, if_neg hlong]
                    rfl

/-- A path that does not lead up, and that ends in a name. -/
structure Direct (path : String) : Prop where
  notUp : ".." ∉ rawParts path
  named : ∃ before name, rawParts path = before ++ [name] ∧ leads name = true

theorem Direct.exists_parts {path : String} (h : Direct path) :
    ∃ name before, (parts path).reverse = name :: before := by
  obtain ⟨before, name, hraw, hname⟩ := h.named
  exact ⟨name, (before.filter leads).reverse, by simp [parts_eq_filter, hraw, hname]⟩

/-- What is found where a path leads. -/
def lookAt (fs : FileSystem) (path : String) : Except OsFault (Option Kind) :=
  if path.contains '\x00' then .error .nulInPath
  else if path.isEmpty then .error .notFound
  else if pathLimit ≤ path.utf8ByteSize then .error .nameTooLong
  else fs.look (fs.start path) (parts path).reverse

theorem lookAt_eq {path : String} (h : Direct path) :
    (fs.locate path).map (fun r => r.2.map kind) = fs.lookAt path := by
  obtain ⟨before, name, hraw, hname⟩ := h.named
  have hup := h.notUp
  have hfollow : (follow fs.root (rawParts path) (fs.start path)
      (fs.root.get? (fs.start path))).map (fun r => r.2.map kind) =
        fs.look (fs.start path) (parts path).reverse := by
    have hnames : ∀ part ∈ (parts path).reverse, leads part = true := fun part hpart =>
      (List.mem_filter.1 (List.mem_reverse.1 hpart)).2
    have hups : ".." ∉ (parts path).reverse := fun hpart =>
      hup (List.mem_filter.1 (List.mem_reverse.1 hpart)).1
    rw [← follow_eq_look hnames hups, List.reverse_reverse, parts_eq_filter]
    rw [hraw] at hup ⊢
    rw [follow_concat fs.root _ (fun hmem => hup (List.mem_append_left _ hmem)),
      List.filter_append, List.filter_cons_of_pos hname, List.filter_nil]
  rw [lookAt, ← hfollow, locate, start]
  split_ifs <;> rfl

theorem locate_of_lookAt_error {path : String} {fault : OsFault} (h : Direct path)
    (hlook : fs.lookAt path = .error fault) : fs.locate path = .error fault := by
  rw [← lookAt_eq h] at hlook
  cases hlocate : fs.locate path with
  | error fault' =>
      rw [hlocate] at hlook
      cases hlook
      rfl
  | ok r => simp [hlocate, Except.map] at hlook

theorem locate_of_lookAt_ok {path : String} {k : Option Kind} (h : Direct path)
    (hlook : fs.lookAt path = .ok k) :
    ∃ found, fs.locate path = .ok (fs.place path, found) ∧ found.map kind = k := by
  rw [← lookAt_eq h] at hlook
  cases hlocate : fs.locate path with
  | error fault => simp [hlocate, Except.map] at hlook
  | ok r =>
      obtain ⟨l, found⟩ := r
      obtain ⟨-, rfl, -⟩ := locate_ok hlocate h.notUp
      refine ⟨found, rfl, ?_⟩
      simpa [hlocate, Except.map] using hlook

/-- Something is found where something is, by a path that the system takes. -/
theorem lookAt_eq_some_iff {path : String} {k : Kind} :
    fs.lookAt path = .ok (some k) ↔ Admissible path ∧ fs.kindAt (fs.place path) = some k := by
  have hplace : fs.place path = fs.start path ++ (parts path).reverse.reverse := by
    rw [place, List.reverse_reverse]
  rw [lookAt, hplace]
  constructor
  · intro h
    split_ifs at h with hnul hempty hlong
    have hshort := short_of_look h
    exact ⟨⟨by simpa using hnul, by simpa using hempty, Nat.not_le.1 hlong,
      fun part hpart => hshort part (List.mem_reverse.2 hpart)⟩, (look_ok h).symm⟩
  · rintro ⟨hpath, hkind⟩
    rw [hpath.noNul, hpath.nonempty, if_neg (by simp), if_neg (by simp),
      if_neg (Nat.not_le.2 hpath.short)]
    exact look_of_kindAt (fun part hpart => hpath.partsShort part (List.mem_reverse.1 hpart)) hkind

theorem exists?_iff {path : String} (h : Direct path) :
    fs.exists? path = true ↔ Admissible path ∧ fs.kindAt (fs.place path) ≠ none := by
  have hfound : fs.exists? path = true ↔ ∃ k, fs.lookAt path = .ok (some k) := by
    rw [exists?, entry?]
    cases hlook : fs.lookAt path with
    | error fault => simp [locate_of_lookAt_error h hlook]
    | ok k =>
        obtain ⟨found, hlocate, rfl⟩ := locate_of_lookAt_ok h hlook
        rw [hlocate]
        cases found <;> simp
  simp only [hfound, lookAt_eq_some_iff, exists_and_left, Option.ne_none_iff_exists']

/-! ## One step -/

/-- What is left of an attempt: what went wrong, and then the files as they were. -/
def attempt {φ : Type} (fs : FileSystem) : Except φ FileSystem → Option φ × FileSystem
  | .ok fs' => (none, fs')
  | .error fault => (some fault, fs)

/-- Something was put at a location, and nothing else was changed. -/
structure Puts (l : Location) (k : Kind) (fs fs' : FileSystem) : Prop where
  working : fs'.working = fs.working
  kindAt : ∀ m, fs'.kindAt m = if m = l then some k else fs.kindAt m

section

variable {path : String} (h : Direct path)

include h

theorem puts_place {k : Kind} {found : Option Kind} (hlook : fs.lookAt path = .ok found)
    (hfound : found ≠ some .directory) :
    Puts (fs.place path) k fs { fs with root := fs.root.put (fs.place path) (leaf k) } := by
  obtain ⟨name, before, hparts⟩ := h.exists_parts
  have hplace : fs.place path = fs.start path ++ before.reverse ++ [name] := by
    have hnames : parts path = before.reverse ++ [name] := by
      rw [← List.reverse_reverse (parts path), hparts, List.reverse_cons]
    rw [place, hnames, List.append_assoc]
  rw [lookAt] at hlook
  split_ifs at hlook
  rw [hparts] at hlook
  obtain ⟨hbefore, -, hkind⟩ := look_cons_ok hlook
  rw [List.reverse_cons, ← List.append_assoc] at hkind
  rw [hplace]
  exact ⟨rfl, Entry.kindAt_put (look_ok hbefore).symm (ne_of_eq_of_ne hkind.symm hfound) k⟩

theorem makeDirectory_of_error {fault : OsFault} (hlook : fs.lookAt path = .error fault) :
    fs.makeDirectory path = .error fault := by
  rw [makeDirectory, locate_of_lookAt_error h hlook]
  rfl

theorem makeDirectory_of_some {k : Kind} (hlook : fs.lookAt path = .ok (some k)) :
    fs.makeDirectory path = .error .alreadyExists := by
  obtain ⟨found, hlocate, hfound⟩ := locate_of_lookAt_ok h hlook
  obtain ⟨e, rfl, -⟩ := Option.map_eq_some_iff.1 hfound
  rw [makeDirectory, hlocate]
  rfl

theorem makeDirectory_of_none (hlook : fs.lookAt path = .ok none) :
    ∃ fs', fs.makeDirectory path = .ok fs' ∧ Puts (fs.place path) .directory fs fs' := by
  obtain ⟨found, hlocate, hfound⟩ := locate_of_lookAt_ok h hlook
  obtain rfl := Option.map_eq_none_iff.1 hfound
  refine ⟨_, ?_, puts_place h hlook (by simp)⟩
  rw [makeDirectory, hlocate]
  rfl

theorem isDirectory_eq : fs.isDirectory path = decide (fs.lookAt path = .ok (some .directory)) := by
  cases hlook : fs.lookAt path with
  | error fault =>
      rw [isDirectory, entry?, locate_of_lookAt_error h hlook]
      simp
  | ok k =>
      obtain ⟨found, hlocate, rfl⟩ := locate_of_lookAt_ok h hlook
      rw [isDirectory, entry?, hlocate]
      rcases found with _ | (content | entries) <;> simp [Entry.isDirectory]

end

end Bindery.FileSystem
