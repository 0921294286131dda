import Bindery.Proofs.Files.Looking

/-!
# Making the directories on a way

What keeps directories from being made one in the other, and which of them are made all the same.
Both are told from what is there before the first is made.
-/

namespace Bindery.FileSystem

open Bindery.Path Entry

variable {fs fs' : FileSystem} {base : Location} {name : String} {before reversed : List String}

/-! ## What is in the way -/

/-- Why the last directory of a way cannot be made, once all before it are made that can be. -/
def obstacle (fs : FileSystem) (base : Location) : List String → Option OsFault
  | [] =>
    match fs.kindAt base with
    | none => some .notFound
    | some (.file _) => some .alreadyExists
    | some .directory => none
  | name :: before =>
    match obstacle fs base before with
    | some .alreadyExists => some .notADirectory
    | some fault => some fault
    | none =>
      if nameLimit < name.utf8ByteSize then some .nameTooLong
      else if (fs.kindAt (base ++ (name :: before).reverse)).any Kind.isFile then
        some .alreadyExists
      else none

theorem obstacle_nil_eq_none_iff :
    fs.obstacle base [] = none ↔ fs.kindAt base = some .directory := by
  rw [obstacle]
  rcases fs.kindAt base with _ | (_ | _) <;> simp

theorem obstacle_cons_eq_none_iff :
    fs.obstacle base (name :: before) = none ↔
      fs.obstacle base before = none ∧ name.utf8ByteSize ≤ nameLimit ∧
        (fs.kindAt (base ++ (name :: before).reverse)).any Kind.isFile = false := by
  rw [obstacle]
  cases fs.obstacle base before with
  | some fault => cases fault <;> simp
  | none =>
      by_cases hlong : nameLimit < name.utf8ByteSize
      · simp [hlong, Nat.not_le.2 hlong]
      · simp [hlong, Nat.not_lt.1 hlong]

theorem short_of_obstacle_eq_none (h : fs.obstacle base reversed = none) :
    ∀ part ∈ reversed, part.utf8ByteSize ≤ nameLimit := by
  induction reversed with
  | nil => simp
  | cons name before ih =>
      obtain ⟨hbefore, hname, -⟩ := obstacle_cons_eq_none_iff.1 h
      exact List.forall_mem_cons.2 ⟨hname, ih hbefore⟩

theorem isFile_of_obstacle_eq_none (h : fs.obstacle base reversed = none) :
    (fs.kindAt (base ++ reversed.reverse)).any Kind.isFile = false := by
  cases reversed with
  | nil => simp [obstacle_nil_eq_none_iff.1 h, Kind.isFile]
  | cons name before => exact (obstacle_cons_eq_none_iff.1 h).2.2

/-- Only files are in the way, and a base that is missing. -/
theorem obstacle_congr (hbase : fs'.kindAt base = fs.kindAt base)
    (h : ∀ q, q <:+ reversed → (fs'.kindAt (base ++ q.reverse)).any Kind.isFile =
      (fs.kindAt (base ++ q.reverse)).any Kind.isFile) :
    fs'.obstacle base reversed = fs.obstacle base reversed := by
  induction reversed with
  | nil => rw [obstacle, obstacle, hbase]
  | cons name before ih =>
      rw [obstacle, obstacle, ih fun q hq => h q (hq.trans (List.suffix_cons name before)),
        h _ List.suffix_rfl]

/-- What stands on the way to something and is not in the way is a directory. -/
theorem kindAt_of_suffix {k : Kind} {q : List String}
    (h : fs.kindAt (base ++ reversed.reverse) = some k) (hq : q <:+ reversed)
    (hobstacle : fs.obstacle base q = none) :
    fs.kindAt (base ++ q.reverse) = some .directory := by
  obtain ⟨rest, rfl⟩ := hq
  have hthere : fs.kindAt (base ++ q.reverse) ≠ none := by
    intro hnone
    rw [List.reverse_append, ← List.append_assoc, kindAt, kindAt_append,
      kindAt_eq_none_iff.1 hnone] at h
    simp at h
  have hfile := isFile_of_obstacle_eq_none hobstacle
  rcases hkind : fs.kindAt (base ++ q.reverse) with _ | (content | _)
  · exact absurd hkind hthere
  · simp [hkind, Kind.isFile] at hfile
  · rfl

/-! ## What is in the way of what is found -/

theorem obstacle_of_look_some {k : Kind} (h : fs.look base reversed = .ok (some k)) :
    fs.obstacle base reversed = if k.isFile then some .alreadyExists else none := by
  induction reversed generalizing k with
  | nil =>
      have hkind := (look_ok h).symm
      rw [obstacle]
      cases k <;> simp_all [Kind.isFile]
  | cons name before ih =>
      have hkind := (look_ok h).symm
      have hshort := short_of_look h
      have hparent := kindAt_of_append (ne_of_eq_of_ne hkind (Option.some_ne_none k))
      have hbefore := ih (look_of_kindAt (List.forall_mem_cons.1 hshort).2 hparent)
      rw [obstacle, hbefore, hkind]
      simp [Kind.isFile, Nat.not_lt.2 (hshort name List.mem_cons_self)]

/-- What is found is in the way only if it is a file. -/
theorem look_of_obstacle_eq_alreadyExists (h : fs.obstacle base reversed = some .alreadyExists) :
    ∃ content, fs.look base reversed = .ok (some (.file content)) := by
  cases reversed with
  | nil =>
      rw [obstacle] at h
      rcases hkind : fs.kindAt base with _ | (content | _)
      · simp [hkind] at h
      · exact ⟨content, by rw [look, hkind]⟩
      · simp [hkind] at h
  | cons name before =>
      rw [obstacle] at h
      cases hbefore : fs.obstacle base before with
      | some fault => cases fault <;> simp [hbefore] at h
      | none =>
          simp only [hbefore] at h
          by_cases hlong : nameLimit < name.utf8ByteSize
          · simp [hlong] at h
          have hfile : (fs.kindAt (base ++ (name :: before).reverse)).any Kind.isFile = true := by
            by_contra hnone
            rw [if_neg hlong, if_neg hnone] at h
            cases h
          rcases hkind : fs.kindAt (base ++ (name :: before).reverse) with _ | (content | _)
          · rw [hkind] at hfile
            simp at hfile
          · refine ⟨content, look_of_kindAt (List.forall_mem_cons.2 ⟨?_, ?_⟩) hkind⟩
            · exact Nat.not_lt.1 hlong
            · exact short_of_obstacle_eq_none hbefore
          · rw [hkind] at hfile
            simp [Kind.isFile] at hfile

theorem obstacle_of_look_error {fault : OsFault} (h : fs.look base reversed = .error fault)
    (hfault : fault ≠ .notFound) :
    fs.obstacle base reversed = some fault ∧ fault ≠ .alreadyExists ∧
      ∀ q, q <:+ reversed → fs.obstacle base q = none →
        fs.kindAt (base ++ q.reverse) = some .directory := by
  induction reversed with
  | nil => simp [look] at h
  | cons name before ih =>
      have hcons (hobstacle : fs.obstacle base (name :: before) = some fault)
          (hmade : ∀ q, q <:+ before → fs.obstacle base q = none →
            fs.kindAt (base ++ q.reverse) = some .directory) :
          ∀ q, q <:+ name :: before → fs.obstacle base q = none →
            fs.kindAt (base ++ q.reverse) = some .directory := by
        intro q hq hnone
        rcases List.suffix_cons_iff.1 hq with rfl | hq
        · simp [hobstacle] at hnone
        · exact hmade q hq hnone
      rw [look] at h
      cases hbefore : fs.look base before with
      | error fault' =>
          obtain rfl : fault' = fault := by simpa [hbefore, bind, Except.bind] using h
          obtain ⟨hobstacle, hexists, hmade⟩ := ih hbefore
          have hobstacle' : fs.obstacle base (name :: before) = some fault' := by
            rw [obstacle, hobstacle]
            cases fault' <;> first | rfl | exact absurd rfl hexists
          exact ⟨hobstacle', hexists, hcons hobstacle' hmade⟩
      | ok inside =>
          rcases inside with _ | k
          · simp_all [lookIn, bind, Except.bind]
          · have hmade : ∀ q, q <:+ before → fs.obstacle base q = none →
                fs.kindAt (base ++ q.reverse) = some .directory :=
              fun q hq => kindAt_of_suffix (look_ok hbefore).symm hq
            have hobstacle := obstacle_of_look_some hbefore
            have hobstacle' : fs.obstacle base (name :: before) = some fault ∧
                fault ≠ .alreadyExists := by
              rw [obstacle, hobstacle]
              cases k with
              | file content =>
                  obtain rfl : OsFault.notADirectory = fault := by
                    simpa [hbefore, lookIn, bind, Except.bind] using h
                  simp [Kind.isFile]
              | directory =>
                  simp only [hbefore, lookIn, bind, Except.bind] at h
                  split_ifs at h with hlong
                  cases h
                  simp [Kind.isFile, hlong]
            exact ⟨hobstacle'.1, hobstacle'.2, hcons hobstacle'.1 hmade⟩

/-! ## What is made -/

/-- On a way all directories were made that nothing was in the way of, and nothing else was
changed. -/
structure Paved (base : Location) (reversed : List String) (fs fs' : FileSystem) : Prop where
  working : fs'.working = fs.working
  made : ∀ q, q <:+ reversed → fs.obstacle base q = none →
    fs'.kindAt (base ++ q.reverse) = some .directory
  kept : ∀ m, (∀ q, q <:+ reversed → fs.obstacle base q = none → m ≠ base ++ q.reverse) →
    fs'.kindAt m = fs.kindAt m

/-- Nothing was to be made. -/
theorem paved_self (h : ∀ q, q <:+ reversed → fs.obstacle base q = none →
    fs.kindAt (base ++ q.reverse) = some .directory) : Paved base reversed fs fs :=
  ⟨rfl, h, fun _ _ => rfl⟩

theorem Paved.cons_of_obstacle (h : Paved base before fs fs')
    (hobstacle : fs.obstacle base (name :: before) ≠ none) :
    Paved base (name :: before) fs fs' where
  working := h.working
  made q hq hnone := by
    rcases List.suffix_cons_iff.1 hq with rfl | hq
    · exact absurd hnone hobstacle
    · exact h.made q hq hnone
  kept m hm := h.kept m fun q hq => hm q (hq.trans (List.suffix_cons name before))

theorem Paved.cons_of_directory (h : Paved base before fs fs')
    (hdirectory : fs'.kindAt (base ++ (name :: before).reverse) = some .directory) :
    Paved base (name :: before) fs fs' where
  working := h.working
  made q hq hnone := by
    rcases List.suffix_cons_iff.1 hq with rfl | hq
    · exact hdirectory
    · exact h.made q hq hnone
  kept m hm := h.kept m fun q hq => hm q (hq.trans (List.suffix_cons name before))

theorem Paved.cons_of_puts {fs'' : FileSystem} (h : Paved base before fs fs')
    (hobstacle : fs.obstacle base (name :: before) = none)
    (hputs : Puts (base ++ (name :: before).reverse) .directory fs' fs'') :
    Paved base (name :: before) fs fs'' where
  working := hputs.working.trans h.working
  made q hq hnone := by
    rw [hputs.kindAt]
    split_ifs with hlast
    · rfl
    · rcases List.suffix_cons_iff.1 hq with rfl | hq
      · exact absurd rfl hlast
      · exact h.made q hq hnone
  kept m hm := by
    rw [hputs.kindAt, if_neg (hm _ List.suffix_rfl hobstacle)]
    exact h.kept m fun q hq => hm q (hq.trans (List.suffix_cons name before))

/-- The last location of a way is not changed by making the way to it. -/
theorem Paved.kindAt_cons (h : Paved base before fs fs') :
    fs'.kindAt (base ++ (name :: before).reverse) =
      fs.kindAt (base ++ (name :: before).reverse) := by
  refine h.kept _ fun q hq _ heq => ?_
  have hlength : (name :: before).length = q.length := by
    simpa using congrArg List.length heq
  have hle := hq.length_le
  rw [List.length_cons] at hlength
  omega

/-! ## Paths put together of names -/

theorem pathOf_cons (absolute : Bool) (hne : before ≠ []) :
    pathOf absolute (name :: before) = pathOf absolute before ++ "/" ++ name := by
  have hparts : before.reverse.map String.toList ≠ [] := by simpa using hne
  have hjoined : Text.joined "/" (name :: before).reverse =
      Text.joined "/" before.reverse ++ "/" ++ name := by
    apply String.toList_inj.1
    rw [List.reverse_cons, Text.joined, List.map_append, List.map_singleton,
      Text.join_concat hparts]
    simp [Text.joined]
  rw [pathOf, hjoined, pathOf, String.append_assoc, String.append_assoc, String.append_assoc]

theorem not_mem_pathOf (absolute : Bool) {c : Char} (hc : c ≠ '/')
    (h : ∀ part ∈ reversed, c ∉ part.toList) : c ∉ (pathOf absolute reversed).toList := by
  have hslash : c ∉ (if absolute then "/" else "").toList := by cases absolute <;> simp [hc]
  rw [pathOf, String.toList_append, List.mem_append, not_or]
  refine ⟨hslash, fun hmem => ?_⟩
  rcases Text.mem_joined hmem with hsep | ⟨part, hpart, hmem⟩
  · simp [hc] at hsep
  · exact h part (List.mem_reverse.1 hpart) hmem

theorem utf8ByteSize_pathOf_le (absolute : Bool) (hne : before ≠ []) :
    (pathOf absolute before).utf8ByteSize ≤ (pathOf absolute (name :: before)).utf8ByteSize := by
  rw [pathOf_cons absolute hne, String.utf8ByteSize_append, String.utf8ByteSize_append]
  omega

theorem direct_pathOf (absolute : Bool) (h : ∀ part ∈ name :: before, IsName part) :
    Direct (pathOf absolute (name :: before)) where
  notUp := not_mem_rawParts_pathOf (List.cons_ne_nil name before) h
  named := by
    refine ⟨(if absolute then [""] else []) ++ before.reverse, name, ?_, ?_⟩
    · rw [rawParts_pathOf absolute (List.cons_ne_nil name before) fun part hpart =>
        (h part hpart).noSlash, List.reverse_cons, List.append_assoc]
    · exact (h name List.mem_cons_self).leading

/-- A path put together of names is followed name by name, unless it is too long. -/
theorem lookAt_pathOf_eq {absolute : Bool} (h : ∀ part ∈ name :: before, IsName part)
    (hnul : ∀ part ∈ name :: before, '\x00' ∉ part.toList) :
    fs.lookAt (pathOf absolute (name :: before)) =
      if pathLimit ≤ (pathOf absolute (name :: before)).utf8ByteSize then .error .nameTooLong
      else fs.look (if absolute then [] else fs.working) (name :: before) := by
  have hne := List.cons_ne_nil name before
  have hparts := parts_pathOf absolute hne fun part hpart =>
    ⟨(h part hpart).leading, (h part hpart).noSlash⟩
  have hfilled : ∀ part ∈ name :: before, part ≠ "" ∧ '/' ∉ part.toList := by
    refine fun part hpart => ⟨?_, (h part hpart).noSlash⟩
    rintro rfl
    exact absurd (h "" hpart).leading (by decide)
  have hcontains : (pathOf absolute (name :: before)).contains '\x00' = false := by
    rw [String.contains_char_eq, decide_eq_false_iff_not]
    exact not_mem_pathOf absolute (by decide) hnul
  have hempty : (pathOf absolute (name :: before)).isEmpty = false := by
    rw [← Bool.not_eq_true, String.isEmpty_iff]
    intro heq
    rw [heq] at hparts
    exact List.reverse_ne_nil_iff.2 hne hparts.symm
  rw [lookAt, hcontains, hempty, if_neg (by simp), if_neg (by simp), start,
    isAbsolute_pathOf absolute hne hfilled, hparts, List.reverse_reverse]

theorem lookAt_pathOf (fs : FileSystem) {absolute : Bool}
    (h : ∀ part ∈ name :: before, IsName part)
    (hnul : ∀ part ∈ name :: before, '\x00' ∉ part.toList)
    (hsize : (pathOf absolute (name :: before)).utf8ByteSize < pathLimit) :
    fs.lookAt (pathOf absolute (name :: before)) =
      fs.look (if absolute then [] else fs.working) (name :: before) := by
  rw [lookAt_pathOf_eq h hnul, if_neg (Nat.not_le.2 hsize)]

/-! ## Making a way -/

/-- The last step of making a way. -/
def makeLast (path : String) (fs : FileSystem) : Option OsFault × FileSystem :=
  fs.attempt (fs.makeIfMissing path)

theorem makeLast_eq (path : String) :
    makeLast path = fun fs =>
      match fs.makeIfMissing path with
      | .ok fs => (none, fs)
      | .error fault => (some fault, fs) := by
  funext fs
  rw [makeLast]
  cases fs.makeIfMissing path <;> rfl

theorem makeLast_of_error {path : String} {fault : OsFault} (h : Direct path)
    (hlook : fs.lookAt path = .error fault) : makeLast path fs = (some fault, fs) := by
  simp [makeLast, attempt, makeIfMissing, makeDirectory_of_error h hlook, isDirectory_eq h, hlook,
    throw, throwThe, MonadExceptOf.throw]

theorem makeLast_of_some {path : String} {k : Kind} (h : Direct path)
    (hlook : fs.lookAt path = .ok (some k)) :
    makeLast path fs = (if k.isFile then some .alreadyExists else none, fs) := by
  cases k <;> simp [makeLast, attempt, makeIfMissing, makeDirectory_of_some h hlook,
    isDirectory_eq h, hlook, throw, throwThe, MonadExceptOf.throw, pure, Except.pure, Kind.isFile]

theorem makeLast_of_none {path : String} (h : Direct path) (hlook : fs.lookAt path = .ok none) :
    ∃ fs', makeLast path fs = (none, fs') ∧ Puts (fs.place path) .directory fs fs' := by
  obtain ⟨fs', hmake, hputs⟩ := makeDirectory_of_none h hlook
  exact ⟨fs', by simp [makeLast, attempt, makeIfMissing, hmake, pure, Except.pure], hputs⟩

theorem makeAlong_of_notFound {absolute : Bool}
    (h : fs.makeDirectory (pathOf absolute (name :: before)) = .error .notFound) :
    makeAlong absolute (name :: before) fs =
      match makeAlong absolute before fs with
      | (none, fs) => makeLast (pathOf absolute (name :: before)) fs
      | r => r := by
  simp only [makeAlong, h]
  rcases makeAlong absolute before fs with ⟨_ | fault, fs'⟩
  · exact (congrFun (makeLast_eq _) fs').symm
  · rfl

theorem makeAlong_of_ne {absolute : Bool}
    (h : fs.makeDirectory (pathOf absolute (name :: before)) ≠ .error .notFound) :
    makeAlong absolute (name :: before) fs =
      makeLast (pathOf absolute (name :: before)) fs := by
  rw [makeAlong, makeLast_eq]
  split
  next heq => exact absurd heq h
  next => rfl

/-- What making a way comes to. -/
structure MakesWay (base : Location) (reversed : List String) (fs : FileSystem)
    (r : Option OsFault × FileSystem) : Prop where
  fault : r.1 = fs.obstacle base reversed
  paved : Paved base reversed fs r.2

section

variable {absolute : Bool} (h : ∀ part ∈ name :: before, IsName part)
  (hnul : ∀ part ∈ name :: before, '\x00' ∉ part.toList)
  (hsize : (pathOf absolute (name :: before)).utf8ByteSize < pathLimit)

include h hnul hsize

/-- The last directory of a way, once the way to it is made. -/
theorem makes_makeLast (hpaved : Paved (if absolute then [] else fs.working) before fs fs')
    (hbefore : fs.obstacle (if absolute then [] else fs.working) before = none) :
    MakesWay (if absolute then [] else fs.working) (name :: before) fs
      (makeLast (pathOf absolute (name :: before)) fs') := by
  have hdirect := direct_pathOf absolute h
  have hlook := lookAt_pathOf fs' h hnul hsize
  rw [hpaved.working] at hlook
  have hplace : fs'.place (pathOf absolute (name :: before)) =
      (if absolute then [] else fs.working) ++ (name :: before).reverse := by
    rw [place_pathOf (List.cons_ne_nil name before) h, hpaved.working]
  generalize (if absolute then [] else fs.working) = base at *
  have hway := look_of_kindAt (short_of_obstacle_eq_none hbefore)
    (hpaved.made before List.suffix_rfl hbefore)
  rw [look, hway, hpaved.kindAt_cons] at hlook
  by_cases hlong : nameLimit < name.utf8ByteSize
  · have hobstacle : fs.obstacle base (name :: before) = some .nameTooLong := by
      rw [obstacle, hbefore]
      exact if_pos hlong
    have hrefused : fs'.lookAt (pathOf absolute (name :: before)) = .error .nameTooLong := by
      simpa [lookIn, hlong, bind, Except.bind] using hlook
    rw [makeLast_of_error hdirect hrefused]
    exact ⟨hobstacle.symm, hpaved.cons_of_obstacle (by simp [hobstacle])⟩
  · have hfound : fs'.lookAt (pathOf absolute (name :: before)) =
        .ok (fs.kindAt (base ++ (name :: before).reverse)) := by
      simpa [lookIn, hlong, bind, Except.bind] using hlook
    have hobstacle : fs.obstacle base (name :: before) =
        if (fs.kindAt (base ++ (name :: before).reverse)).any Kind.isFile then
          some .alreadyExists
        else none := by
      rw [obstacle, hbefore]
      exact if_neg hlong
    rcases hkind : fs.kindAt (base ++ (name :: before).reverse) with _ | (content | _)
    · rw [hkind] at hfound hobstacle
      obtain ⟨fs'', hmake, hputs⟩ := makeLast_of_none hdirect hfound
      rw [hplace] at hputs
      rw [hmake]
      exact ⟨hobstacle.symm, hpaved.cons_of_puts hobstacle hputs⟩
    · rw [hkind] at hfound hobstacle
      rw [makeLast_of_some hdirect hfound]
      exact ⟨hobstacle.symm, hpaved.cons_of_obstacle (by simp [hobstacle, Kind.isFile])⟩
    · rw [hkind] at hfound hobstacle
      rw [makeLast_of_some hdirect hfound]
      exact ⟨hobstacle.symm, hpaved.cons_of_directory (hpaved.kindAt_cons.trans hkind)⟩

theorem makesWay_of_look_ok {k : Option Kind}
    (hlook : fs.look (if absolute then [] else fs.working) (name :: before) = .ok k) :
    MakesWay (if absolute then [] else fs.working) (name :: before) fs
      (makeAlong absolute (name :: before) fs) := by
  have hdirect := direct_pathOf absolute h
  have hfound := lookAt_pathOf fs h hnul hsize
  have hfirst : fs.makeDirectory (pathOf absolute (name :: before)) ≠ .error .notFound := by
    cases k with
    | none =>
        obtain ⟨fs', hmake, -⟩ := makeDirectory_of_none hdirect (hfound.trans hlook)
        simp [hmake]
    | some k => simp [makeDirectory_of_some hdirect (hfound.trans hlook)]
  rw [makeAlong_of_ne hfirst]
  obtain ⟨hbefore, -, -⟩ := look_cons_ok hlook
  refine makes_makeLast h hnul hsize (paved_self fun q hq => ?_) (obstacle_of_look_some hbefore)
  exact kindAt_of_suffix (look_ok hbefore).symm hq

theorem makesWay_of_look_error {fault : OsFault} (hfault : fault ≠ .notFound)
    (hlook : fs.look (if absolute then [] else fs.working) (name :: before) = .error fault) :
    MakesWay (if absolute then [] else fs.working) (name :: before) fs
      (makeAlong absolute (name :: before) fs) := by
  have hdirect := direct_pathOf absolute h
  have hfound := (lookAt_pathOf fs h hnul hsize).trans hlook
  have hfirst : fs.makeDirectory (pathOf absolute (name :: before)) ≠ .error .notFound := by
    simpa [makeDirectory_of_error hdirect hfound] using hfault
  rw [makeAlong_of_ne hfirst, makeLast_of_error hdirect hfound]
  obtain ⟨hobstacle, -, hmade⟩ := obstacle_of_look_error hlook hfault
  exact ⟨hobstacle.symm, paved_self hmade⟩

/-- The last directory of a way that could not be looked along, once the way to it is made or
given up. -/
theorem makesWay_of_look_notFound
    (hlook : fs.look (if absolute then [] else fs.working) (name :: before) = .error .notFound)
    (hway : MakesWay (if absolute then [] else fs.working) before fs
      (makeAlong absolute before fs)) :
    MakesWay (if absolute then [] else fs.working) (name :: before) fs
      (makeAlong absolute (name :: before) fs) := by
  have hdirect := direct_pathOf absolute h
  have hfound := (lookAt_pathOf fs h hnul hsize).trans hlook
  rw [makeAlong_of_notFound (makeDirectory_of_error hdirect hfound)]
  obtain ⟨hresult, hpaved⟩ := hway
  rcases hmake : makeAlong absolute before fs with ⟨_ | fault, fs'⟩
  · rw [hmake] at hresult hpaved
    exact makes_makeLast h hnul hsize hpaved hresult.symm
  · rw [hmake] at hresult hpaved
    have hexists : fault ≠ .alreadyExists := by
      rintro rfl
      obtain ⟨content, hfile⟩ := look_of_obstacle_eq_alreadyExists hresult.symm
      rw [look, hfile] at hlook
      cases hlook
    have hobstacle : fs.obstacle (if absolute then [] else fs.working) (name :: before) =
        some fault := by
      rw [obstacle, ← hresult]
      cases fault <;> first | rfl | exact absurd rfl hexists
    exact ⟨hobstacle.symm, hpaved.cons_of_obstacle (by simp [hobstacle])⟩

end

/-- If there is nothing for a single name to be found in, where it starts is missing. -/
theorem obstacle_nil_of_look_notFound {base : Location}
    (hlook : fs.look base [name] = .error .notFound) : fs.obstacle base [] = some .notFound := by
  have hmissing : fs.kindAt base = none := by
    rcases hkind : fs.kindAt base with _ | (_ | _)
    · rfl
    · simp [look, lookIn, hkind, bind, Except.bind] at hlook
    · simp only [look, lookIn, hkind, bind, Except.bind] at hlook
      split_ifs at hlook
      cases hlook
  rw [obstacle, hmissing]

theorem makesWay_of_look_singleton_notFound {absolute : Bool} (h : ∀ part ∈ [name], IsName part)
    (hnul : ∀ part ∈ [name], '\x00' ∉ part.toList)
    (hsize : (pathOf absolute [name]).utf8ByteSize < pathLimit)
    (hlook : fs.look (if absolute then [] else fs.working) [name] = .error .notFound) :
    MakesWay (if absolute then [] else fs.working) [name] fs (makeAlong absolute [name] fs) := by
  have hdirect := direct_pathOf absolute h
  have hfound := (lookAt_pathOf fs h hnul hsize).trans hlook
  have hbase := obstacle_nil_of_look_notFound hlook
  have hobstacle : fs.obstacle (if absolute then [] else fs.working) [name] = some .notFound := by
    rw [obstacle, hbase]
  rw [makeAlong_of_notFound (makeDirectory_of_error hdirect hfound), makeAlong]
  simp only
  rw [makeLast_of_error hdirect hfound]
  refine ⟨hobstacle.symm, paved_self fun q hq hnone => ?_⟩
  rcases List.suffix_cons_iff.1 hq with rfl | hq
  · simp [hobstacle] at hnone
  · rw [List.suffix_nil.1 hq, hbase] at hnone
    cases hnone

/-- Directories are made as far as nothing is in the way. -/
theorem makesWay_makeAlong {absolute : Bool} (h : ∀ part ∈ name :: before, IsName part)
    (hnul : ∀ part ∈ name :: before, '\x00' ∉ part.toList)
    (hsize : (pathOf absolute (name :: before)).utf8ByteSize < pathLimit) :
    MakesWay (if absolute then [] else fs.working) (name :: before) fs
      (makeAlong absolute (name :: before) fs) := by
  induction before generalizing name with
  | nil =>
      cases hlook : fs.look (if absolute then [] else fs.working) [name] with
      | ok k => exact makesWay_of_look_ok h hnul hsize hlook
      | error fault =>
          by_cases hfault : fault = .notFound
          · subst hfault
            exact makesWay_of_look_singleton_notFound h hnul hsize hlook
          · exact makesWay_of_look_error h hnul hsize hfault hlook
  | cons name' before ih =>
      cases hlook : fs.look (if absolute then [] else fs.working) (name :: name' :: before) with
      | ok k => exact makesWay_of_look_ok h hnul hsize hlook
      | error fault =>
          by_cases hfault : fault = .notFound
          · subst hfault
            have hshorter : (pathOf absolute (name' :: before)).utf8ByteSize < pathLimit :=
              Nat.lt_of_le_of_lt
                (utf8ByteSize_pathOf_le absolute (List.cons_ne_nil name' before)) hsize
            exact makesWay_of_look_notFound h hnul hsize hlook
              (ih (List.forall_mem_cons.1 h).2 (List.forall_mem_cons.1 hnul).2 hshorter)
          · exact makesWay_of_look_error h hnul hsize hfault hlook

/-- Where the path is too long, nothing is made. -/
theorem makeAlong_of_long {absolute : Bool} (h : ∀ part ∈ name :: before, IsName part)
    (hnul : ∀ part ∈ name :: before, '\x00' ∉ part.toList)
    (hsize : pathLimit ≤ (pathOf absolute (name :: before)).utf8ByteSize) :
    makeAlong absolute (name :: before) fs = (some .nameTooLong, fs) := by
  have hdirect := direct_pathOf absolute h
  have hlook : fs.lookAt (pathOf absolute (name :: before)) = .error .nameTooLong := by
    rw [lookAt_pathOf_eq h hnul, if_pos hsize]
  rw [makeAlong_of_ne (by simp [makeDirectory_of_error hdirect hlook]),
    makeLast_of_error hdirect hlook]

end Bindery.FileSystem
