import Bindery.Proofs.Files.Making

/-!
# Directories side by side

What may happen in the directories beside one, and what it means that something comes to the same
whatever has happened there.
-/

namespace Bindery.FileSystem

open Bindery.Path Entry

variable {fs fs' fs₂ fs₂' : FileSystem} {out name : String} {names : List String} {l : Location}

/-! ## What may have happened beside a directory -/

/-- A location behind where a path starts, up to where it leads. -/
def OnWay (fs : FileSystem) (out : String) (l : Location) : Prop :=
  ∃ q, q ≠ [] ∧ q <+: parts out ∧ l = fs.start out ++ q

/-- Nothing was changed but what is in directories of these names, apart from directories that were
made where one was missing on the way. -/
structure Beside (out : String) (names : List String) (fs fs' : FileSystem) : Prop where
  working : fs'.working = fs.working
  kindAt : ∀ l, (∀ name ∈ names, ¬ fs.place out ++ [name] <+: l) →
    fs'.kindAt l = fs.kindAt l ∨
      (fs.OnWay out l ∧ fs.kindAt l = none ∧ fs'.kindAt l = some .directory)

theorem start_eq_of_working (h : fs'.working = fs.working) (path : String) :
    fs'.start path = fs.start path := by
  rw [start, start, h]

theorem onWay_congr (h : fs'.working = fs.working) : fs'.OnWay out l ↔ fs.OnWay out l := by
  rw [OnWay, OnWay, start_eq_of_working h]

theorem OnWay.not_prefix (h : fs.OnWay out l) (name : String) :
    ¬ fs.place out ++ [name] <+: l := by
  obtain ⟨q, -, hq, rfl⟩ := h
  intro hprefix
  have hle := hprefix.length_le
  have hlength := hq.length_le
  rw [place, List.length_append, List.length_append, List.length_append,
    List.length_singleton] at hle
  omega

/-- What is on the way to something is a directory. -/
theorem OnWay.directory (h : fs.OnWay out l) (hthere : fs.kindAt (fs.place out ++ [name]) ≠ none) :
    fs.kindAt l = some .directory := by
  obtain ⟨q, -, ⟨rest, hrest⟩, rfl⟩ := h
  refine kindAt_eq_directory_of_append (m := rest ++ [name]) (by simp) ?_
  rwa [place, ← hrest, List.append_assoc, List.append_assoc, ← List.append_assoc] at hthere

theorem not_prefix_start (fs : FileSystem) (out name : String) :
    ¬ fs.place out ++ [name] <+: fs.start out := by
  intro hprefix
  have hle := hprefix.length_le
  rw [place, List.length_append, List.length_append, List.length_singleton] at hle
  omega

theorem name_eq_of_inside {name' : String} (h : fs.place out ++ [name] <+: l)
    (h' : fs.place out ++ [name'] <+: l) : name = name' := by
  obtain ⟨rest, rfl⟩ := h
  rw [List.append_assoc, List.prefix_append_right_inj] at h'
  simpa [eq_comm] using h'

namespace Beside

theorem refl (out : String) (names : List String) (fs : FileSystem) : Beside out names fs fs :=
  ⟨rfl, fun _ _ => .inl rfl⟩

theorem mono {names' : List String} (h : Beside out names fs fs') (hnames : names ⊆ names') :
    Beside out names' fs fs' :=
  ⟨h.working, fun l hl => h.kindAt l fun name hname => hl name (hnames hname)⟩

theorem trans {fs'' : FileSystem} (h : Beside out names fs fs') (h' : Beside out names fs' fs'') :
    Beside out names fs fs'' where
  working := h'.working.trans h.working
  kindAt l hl := by
    have hplace := place_eq_of_working h.working out
    rcases h'.kindAt l (hplace ▸ hl) with hsame' | ⟨hway', hnone', hmade'⟩
    · rw [hsame']
      exact h.kindAt l hl
    · rcases h.kindAt l hl with hsame | ⟨-, -, hmade⟩
      · exact .inr ⟨(onWay_congr h.working).1 hway', hsame.symm.trans hnone', hmade'⟩
      · rw [hnone'] at hmade
        cases hmade

/-- What is in a directory of another name is unchanged. -/
theorem inside (h : Beside out names fs fs') (hname : name ∉ names)
    (hl : fs.place out ++ [name] <+: l) : fs'.kindAt l = fs.kindAt l := by
  have hother : ∀ other ∈ names, ¬ fs.place out ++ [other] <+: l := fun other hmem hprefix =>
    hname (name_eq_of_inside hprefix hl ▸ hmem)
  rcases h.kindAt l hother with hsame | ⟨hway, -⟩
  · exact hsame
  · exact absurd hl (hway.not_prefix name)

theorem atStart (h : Beside out names fs fs') :
    fs'.kindAt (fs.start out) = fs.kindAt (fs.start out) := by
  rcases h.kindAt _ fun name _ => not_prefix_start fs out name with hsame | ⟨⟨q, hne, -, hq⟩, -⟩
  · exact hsame
  · exact absurd (List.self_eq_append_right.1 hq) hne

theorem isFile (h : Beside out names fs fs') (hl : fs.OnWay out l) :
    (fs'.kindAt l).any Kind.isFile = (fs.kindAt l).any Kind.isFile := by
  rcases h.kindAt l fun name _ => hl.not_prefix name with hsame | ⟨-, hnone, hmade⟩
  · rw [hsame]
  · simp [hnone, hmade, Kind.isFile]

theorem directory (h : Beside out names fs fs') (hl : fs.OnWay out l)
    (hdirectory : fs.kindAt l = some .directory) : fs'.kindAt l = some .directory := by
  rcases h.kindAt l fun name _ => hl.not_prefix name with hsame | ⟨-, -, hmade⟩
  · rw [hsame, hdirectory]
  · exact hmade

end Beside

/-! ## The way to a directory -/

/-- The locations on the way to a directory, which counts. -/
theorem suffix_cases (fs : FileSystem) {q : List String}
    (hq : q <:+ name :: (parts out).reverse) :
    q = [] ∨ fs.OnWay out (fs.start out ++ q.reverse) ∨
      (q = name :: (parts out).reverse ∧
        fs.start out ++ q.reverse = fs.place out ++ [name]) := by
  rcases List.suffix_cons_iff.1 hq with rfl | hq
  · exact .inr (.inr ⟨rfl, by simp [place]⟩)
  · by_cases hnil : q = []
    · exact .inl hnil
    · refine .inr (.inl ⟨q.reverse, by simpa using hnil, ?_, rfl⟩)
      exact List.reverse_suffix.1 (by simpa using hq)

theorem Beside.obstacle {q : List String} (h : Beside out names fs fs') (hname : name ∉ names)
    (hq : q <:+ name :: (parts out).reverse) :
    fs'.obstacle (fs.start out) q = fs.obstacle (fs.start out) q := by
  refine obstacle_congr h.atStart fun p hp => ?_
  rcases suffix_cases fs (hp.trans hq) with rfl | hway | ⟨-, hlast⟩
  · rw [List.reverse_nil, List.append_nil, h.atStart]
  · exact h.isFile hway
  · rw [h.inside hname (hlast ▸ List.prefix_rfl)]

theorem Paved.beside (h : Paved (fs.start out) (name :: (parts out).reverse) fs fs') :
    Beside out [name] fs fs' where
  working := h.working
  kindAt l hl := by
    by_cases hmade : ∃ q, q <:+ name :: (parts out).reverse ∧
        fs.obstacle (fs.start out) q = none ∧ l = fs.start out ++ q.reverse
    · obtain ⟨q, hq, hobstacle, rfl⟩ := hmade
      have hdirectory := h.made q hq hobstacle
      rcases suffix_cases fs hq with rfl | hway | ⟨-, hlast⟩
      · left
        rw [hdirectory, List.reverse_nil, List.append_nil, obstacle_nil_eq_none_iff.1 hobstacle]
      · have hfile := isFile_of_obstacle_eq_none hobstacle
        rcases hkind : fs.kindAt (fs.start out ++ q.reverse) with _ | (content | _)
        · exact .inr ⟨hway, rfl, hdirectory⟩
        · simp [hkind, Kind.isFile] at hfile
        · exact .inl hdirectory
      · exact absurd (hlast ▸ List.prefix_rfl) (hl name (List.mem_singleton_self name))
    · refine .inl (h.kept l fun q hq hobstacle heq => hmade ⟨q, hq, hobstacle, heq⟩)

/-! ## The same done twice -/

/-- Two runs come to the same, one of them where something has happened beside. -/
structure Alike {ρ : Type} (out name : String) (names : List String) (fs fs₂ : FileSystem)
    (r r₂ : ρ × FileSystem) : Prop where
  result : r₂.1 = r.1
  frame : Beside out [name] fs r.2
  beside : Beside out names r.2 r₂.2
  way : ∀ l, fs.OnWay out l → r₂.2.kindAt l = some .directory →
    r.2.kindAt l = some .directory ∨ fs₂.kindAt l = some .directory

/-- What is done comes to the same, whatever has happened beside. -/
def Confined {ρ : Type} (out name : String) (act : FileSystem → ρ × FileSystem) : Prop :=
  ∀ names fs fs₂, name ∉ names → Beside out names fs fs₂ →
    Alike out name names fs fs₂ (act fs) (act fs₂)

namespace Alike

theorem stay {ρ : Type} (h : Beside out names fs fs₂) (r : ρ) :
    Alike out name names fs fs₂ (r, fs) (r, fs₂) :=
  ⟨rfl, .refl _ _ _, h, fun _ _ hmade => .inr hmade⟩

theorem trans {ρ τ : Type} {r r₂ : ρ × FileSystem} {t t₂ : τ × FileSystem}
    (h : Alike out name names fs fs₂ r r₂) (h' : Alike out name names r.2 r₂.2 t t₂) :
    Alike out name names fs fs₂ t t₂ where
  result := h'.result
  frame := h.frame.trans h'.frame
  beside := h'.beside
  way l hl hmade := by
    have hl' := (onWay_congr h.frame.working).2 hl
    rcases h'.way l hl' hmade with hmade | hmade
    · exact .inl hmade
    · rcases h.way l hl hmade with hmade | hmade
      · exact .inl (h'.frame.directory hl' hmade)
      · exact .inr hmade

theorem map {ρ τ : Type} {r r₂ : ρ × FileSystem} (h : Alike out name names fs fs₂ r r₂)
    (f : ρ → τ) : Alike out name names fs fs₂ (f r.1, r.2) (f r₂.1, r₂.2) :=
  ⟨congrArg f h.result, h.frame, h.beside, h.way⟩

/-- Nothing was changed but in the directory, and there the same is left. -/
theorem of_inside {ρ : Type} (h : Beside out names fs fs₂) (r : ρ)
    (hworking : fs'.working = fs.working) (hworking₂ : fs₂'.working = fs₂.working)
    (hsame : ∀ l, fs.place out ++ [name] <+: l → fs₂'.kindAt l = fs'.kindAt l)
    (hkept : ∀ l, ¬ fs.place out ++ [name] <+: l → fs'.kindAt l = fs.kindAt l)
    (hkept₂ : ∀ l, ¬ fs.place out ++ [name] <+: l → fs₂'.kindAt l = fs₂.kindAt l) :
    Alike out name names fs fs₂ (r, fs') (r, fs₂') where
  result := rfl
  frame := ⟨hworking, fun l hl => .inl (hkept l (hl name (List.mem_singleton_self name)))⟩
  beside := by
    refine ⟨hworking₂.trans (h.working.trans hworking.symm), fun l hl => ?_⟩
    rw [place_eq_of_working hworking] at hl
    by_cases hinside : fs.place out ++ [name] <+: l
    · exact .inl (hsame l hinside)
    · rw [hkept l hinside, hkept₂ l hinside, onWay_congr hworking]
      exact h.kindAt l hl
  way l hl hmade := .inr (by rwa [hkept₂ l (hl.not_prefix name)] at hmade)

end Alike

/-- The same is made of a way where something has happened beside. -/
theorem alike_of_paved {ρ : Type} (h : Beside out names fs fs₂) (hname : name ∉ names) (r : ρ)
    (hpaved : Paved (fs.start out) (name :: (parts out).reverse) fs fs')
    (hpaved₂ : Paved (fs₂.start out) (name :: (parts out).reverse) fs₂ fs₂') :
    Alike out name names fs fs₂ (r, fs') (r, fs₂') := by
  rw [start_eq_of_working h.working] at hpaved₂
  have hcases (l : Location) :
      (fs'.kindAt l = some .directory ∧ fs₂'.kindAt l = some .directory) ∨
        (fs'.kindAt l = fs.kindAt l ∧ fs₂'.kindAt l = fs₂.kindAt l) := by
    by_cases hmade : ∃ q, q <:+ name :: (parts out).reverse ∧
        fs.obstacle (fs.start out) q = none ∧ l = fs.start out ++ q.reverse
    · obtain ⟨q, hq, hobstacle, rfl⟩ := hmade
      exact .inl ⟨hpaved.made q hq hobstacle,
        hpaved₂.made q hq ((h.obstacle hname hq).trans hobstacle)⟩
    · refine .inr ⟨hpaved.kept l fun q hq hobstacle heq => hmade ⟨q, hq, hobstacle, heq⟩, ?_⟩
      exact hpaved₂.kept l fun q hq hobstacle heq =>
        hmade ⟨q, hq, (h.obstacle hname hq).symm.trans hobstacle, heq⟩
  refine ⟨rfl, hpaved.beside, ⟨?_, fun l hl => ?_⟩, fun l _ hmade => ?_⟩
  · exact hpaved₂.working.trans (h.working.trans hpaved.working.symm)
  · rw [place_eq_of_working hpaved.working] at hl
    rw [onWay_congr hpaved.working]
    rcases hcases l with ⟨hmade, hmade₂⟩ | ⟨hkept, hkept₂⟩
    · exact .inl (hmade₂.trans hmade.symm)
    · rw [hkept, hkept₂]
      exact h.kindAt l hl
  · rcases hcases l with ⟨hmade, -⟩ | ⟨-, hkept₂⟩
    · exact .inl hmade
    · exact .inr (hkept₂ ▸ hmade)

end Bindery.FileSystem
