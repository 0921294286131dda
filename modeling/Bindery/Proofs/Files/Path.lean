import Bindery.Files.Operations
import Bindery.Proofs.Text.Split

/-!
# Parts of paths

A path put together has the parts that it was put together from.
-/

namespace Bindery.Path

open Text

/-- The part leads somewhere: to an entry, or up. -/
def leads (part : String) : Bool :=
  part ≠ "" && part ≠ "."

/-- A name that a directory can have an entry of. -/
structure IsName (name : String) : Prop where
  leading : leads name = true
  notUp : name ≠ ".."
  noSlash : '/' ∉ name.toList

instance : DecidablePred IsName := fun name =>
  decidable_of_iff (leads name = true ∧ name ≠ ".." ∧ '/' ∉ name.toList)
    ⟨fun ⟨hleading, hup, hslash⟩ => ⟨hleading, hup, hslash⟩,
      fun h => ⟨h.leading, h.notUp, h.noSlash⟩⟩

theorem parts_eq_filter (path : String) : parts path = (rawParts path).filter leads := rfl

theorem isAbsolute_iff (path : String) :
    isAbsolute path = true ↔ path.toList.head? = some '/' := by
  have hstart : isAbsolute path = true ↔ ['/'] <+: path.toList := String.startsWith_string_iff
  rw [hstart]
  cases path.toList <;> simp [List.cons_prefix_cons, eq_comm]

theorem rawParts_append (a b : String) : rawParts (a ++ "/" ++ b) = rawParts a ++ rawParts b := by
  have htext : (a ++ "/" ++ b).toList = a.toList ++ '/' :: b.toList := by simp
  rw [rawParts, pieces, htext]
  exact (congrArg (List.map String.ofList) (splitOn_append_cons '/' a.toList b.toList)).trans
    List.map_append

theorem rawParts_name {name : String} (h : '/' ∉ name.toList) : rawParts name = [name] := by
  have hsplit : splitOn ['/'] name.toList = [name.toList] :=
    splitOn_of_not_mem (x := '/') (by simp) h
  rw [rawParts, pieces]
  exact (congrArg (List.map String.ofList) hsplit).trans (by simp)

theorem noSlash_of_mem_rawParts {path part : String} (h : part ∈ rawParts path) :
    '/' ∉ part.toList := by
  obtain ⟨piece, hpiece, rfl⟩ := List.mem_map.1 h
  rw [String.toList_ofList]
  exact not_mem_of_mem_splitOn hpiece

theorem eq_of_isAbsolute_iff {p q : String}
    (h : p.toList.head? = some '/' ↔ q.toList.head? = some '/') : isAbsolute p = isAbsolute q := by
  rw [Bool.eq_iff_iff, isAbsolute_iff, isAbsolute_iff, h]

/-! ## A name in a directory -/

theorem IsName.head?_ne {name : String} (h : IsName name) : name.toList.head? ≠ some '/' :=
  fun hhead => h.noSlash (List.mem_of_mem_head? hhead)

/-- What stands before a name in a directory depends on the directory alone. -/
theorem join_front (directory : String) :
    directory = "" ∨
    (∃ front, directory = front ++ "/" ∧
      ∀ {name}, IsName name → join directory name = front ++ "/" ++ name) ∨
    (directory ≠ "" ∧ ∀ {name}, IsName name → join directory name = directory ++ "/" ++ name) := by
  have habsolute {name : String} (h : IsName name) : ¬ isAbsolute name = true := fun habsolute =>
    h.head?_ne ((isAbsolute_iff name).1 habsolute)
  by_cases hempty : directory.isEmpty = true
  · exact .inl (String.isEmpty_iff.1 hempty)
  · by_cases hend : directory.endsWith "/" = true
    · have hsuffix := hend
      rw [String.endsWith_eq_endsWith_toSlice, String.Slice.endsWith_string_iff] at hsuffix
      obtain ⟨front, hfront⟩ := hsuffix
      have hdirectory : directory = String.ofList front ++ "/" := by
        apply String.toList_inj.1
        simpa using hfront.symm
      refine .inr (.inl ⟨String.ofList front, hdirectory, fun {name} h => ?_⟩)
      have hjoin : join directory name = directory ++ name := by
        simp [join, habsolute h, hempty, hend]
      rw [hjoin, hdirectory]
    · refine .inr (.inr ⟨fun heq => hempty (String.isEmpty_iff.2 heq), fun {name} h => ?_⟩)
      simp [join, habsolute h, hempty, hend]

section

variable {name : String} (h : IsName name) (directory : String)

include h

/-- The ways to put a name behind a directory. -/
theorem IsName.join_cases :
    (directory = "" ∧ join directory name = name) ∨
    (∃ front, directory = front ++ "/" ∧ join directory name = front ++ "/" ++ name) ∨
    (directory ≠ "" ∧ join directory name = directory ++ "/" ++ name) := by
  rcases join_front directory with rfl | ⟨front, hfront, hjoin⟩ | ⟨hne, hjoin⟩
  · exact .inl ⟨rfl, by simp [join]⟩
  · exact .inr (.inl ⟨front, hfront, hjoin h⟩)
  · exact .inr (.inr ⟨hne, hjoin h⟩)

theorem IsName.isAbsolute_join : isAbsolute (join directory name) = isAbsolute directory := by
  refine eq_of_isAbsolute_iff ?_
  rcases h.join_cases directory with ⟨rfl, hjoin⟩ | ⟨front, rfl, hjoin⟩ | ⟨hne, hjoin⟩
  · simp [hjoin, h.head?_ne]
  · rw [hjoin]
    cases hfront : front.toList <;> simp [hfront]
  · rw [hjoin]
    cases hdirectory : directory.toList with
    | nil => exact absurd (String.toList_eq_nil_iff.1 hdirectory) hne
    | cons c cs => simp [hdirectory]

/-- The parts of a directory, and the name. -/
theorem IsName.exists_rawParts_join : ∃ before, rawParts (join directory name) = before ++ [name] ∧
    before.filter leads = parts directory ∧ ∀ part ∈ before, part ∈ rawParts directory := by
  have hname := rawParts_name h.noSlash
  rcases h.join_cases directory with ⟨rfl, hjoin⟩ | ⟨front, rfl, hjoin⟩ | ⟨-, hjoin⟩
  · exact ⟨[], by rw [hjoin, hname]; rfl, by decide, nofun⟩
  · have hfront : rawParts (front ++ "/") = rawParts front ++ [""] := by
      have hempty := rawParts_append front ""
      rw [String.append_empty] at hempty
      exact hempty
    refine ⟨rawParts front, by rw [hjoin, rawParts_append, hname], ?_, ?_⟩
    · rw [parts_eq_filter, hfront, List.filter_append]
      simp [leads]
    · intro part hpart
      rw [hfront]
      exact List.mem_append_left _ hpart
  · exact ⟨rawParts directory, by rw [hjoin, rawParts_append, hname], rfl, fun _ hpart => hpart⟩

theorem IsName.parts_join : parts (join directory name) = parts directory ++ [name] := by
  obtain ⟨before, hraw, hparts, -⟩ := h.exists_rawParts_join directory
  rw [parts_eq_filter, hraw, List.filter_append, hparts]
  simp [h.leading]

theorem IsName.not_mem_rawParts_join {directory : String} (hdirectory : ".." ∉ rawParts directory) :
    ".." ∉ rawParts (join directory name) := by
  obtain ⟨before, hraw, -, hbefore⟩ := h.exists_rawParts_join directory
  rw [hraw, List.mem_append, List.mem_singleton]
  rintro (hup | hup)
  · exact hdirectory (hbefore _ hup)
  · exact h.notUp hup.symm

theorem IsName.leads_getLast?_rawParts_join :
    ∀ part ∈ (rawParts (join directory name)).getLast?, leads part = true := by
  obtain ⟨before, hraw, -, -⟩ := h.exists_rawParts_join directory
  intro part hpart
  rw [hraw, List.getLast?_append] at hpart
  obtain rfl : name = part := by simpa using hpart
  exact h.leading

/-- All that a directory is written with is in the path of a name in it. -/
theorem IsName.toList_prefix_join : directory.toList <+: (join directory name).toList := by
  rcases h.join_cases directory with ⟨rfl, -⟩ | ⟨front, rfl, hjoin⟩ | ⟨-, hjoin⟩
  · exact List.nil_prefix
  · rw [hjoin]
    simp
  · rw [hjoin]
    simp

end

end Bindery.Path

namespace Bindery.FileSystem

open Bindery.Path Text

/-! ## Parts put together -/

theorem rawParts_pathOf (absolute : Bool) {reversed : List String} (hne : reversed ≠ [])
    (h : ∀ part ∈ reversed, '/' ∉ part.toList) :
    rawParts (pathOf absolute reversed) =
      (if absolute then [""] else []) ++ reversed.reverse := by
  have hjoined : rawParts (joined "/" reversed.reverse) = reversed.reverse := by
    have hsplit : splitOn ['/'] (Text.join ['/'] (reversed.reverse.map String.toList)) =
        reversed.reverse.map String.toList :=
      splitOn_join (by simpa using hne) (by simpa using h)
    have hstrings : (reversed.reverse.map String.toList).map String.ofList = reversed.reverse := by
      simp [Function.comp_def]
    have htext : (joined "/" reversed.reverse).toList =
        Text.join ['/'] (reversed.reverse.map String.toList) := String.toList_ofList
    rw [rawParts, pieces, htext]
    exact (congrArg (List.map String.ofList) hsplit).trans hstrings
  cases absolute with
  | false => simpa [pathOf] using hjoined
  | true =>
      have htext : pathOf true reversed = "" ++ "/" ++ joined "/" reversed.reverse := by
        simp [pathOf]
      rw [htext, rawParts_append, hjoined]
      rfl

theorem isAbsolute_pathOf (absolute : Bool) {reversed : List String} (hne : reversed ≠ [])
    (h : ∀ part ∈ reversed, part ≠ "" ∧ '/' ∉ part.toList) :
    isAbsolute (pathOf absolute reversed) = absolute := by
  cases absolute with
  | true =>
      rw [isAbsolute_iff]
      simp [pathOf]
  | false =>
      obtain ⟨first, parts, hcons⟩ := List.exists_cons_of_ne_nil (List.reverse_ne_nil_iff.2 hne)
      obtain ⟨hfirst, hslash⟩ := h first (List.mem_reverse.1 (by simp [hcons]))
      obtain ⟨c, cs, hchars⟩ := List.exists_cons_of_ne_nil (mt String.toList_eq_nil_iff.1 hfirst)
      have hhead : (pathOf false reversed).toList.head? = some c := by
        cases parts <;> simp [pathOf, joined, hcons, Text.join, hchars]
      rw [← Bool.not_eq_true, isAbsolute_iff, hhead]
      rintro heq
      exact hslash (by rw [hchars, Option.some.inj heq]; simp)

theorem parts_pathOf (absolute : Bool) {reversed : List String} (hne : reversed ≠ [])
    (h : ∀ part ∈ reversed, leads part = true ∧ '/' ∉ part.toList) :
    parts (pathOf absolute reversed) = reversed.reverse := by
  have hleads : reversed.reverse.filter leads = reversed.reverse :=
    List.filter_eq_self.2 fun part hpart => (h part (List.mem_reverse.1 hpart)).1
  rw [parts_eq_filter, rawParts_pathOf absolute hne fun part hpart => (h part hpart).2,
    List.filter_append, hleads]
  cases absolute <;> rfl

end Bindery.FileSystem
