import Bindery.Proofs.Text.Pieces
import Bindery.Spec.TypeExpr

/-!
# Paths in one text

`path_fullName_inverse`: the path of a name or a template keeps all of the text that it is made of,
and a path is got back from its text if its parts do not run into the colons between them.
-/

namespace Bindery

theorem scopeSeparator_toList : scopeSeparator.toList = [':', ':'] := rfl

theorem scopeSeparator_ne_nil : scopeSeparator.toList ≠ [] := List.cons_ne_nil ':' [':']

/-! ## Texts -/

theorem map_toList_pieces (sep s : String) :
    (Text.pieces sep s).map String.toList = Text.splitOn sep.toList s.toList := by
  simp [Text.pieces]

theorem joinPath_splitPath (fullName : String) : joinPath (splitPath fullName) = fullName := by
  rw [splitPath]
  split
  next hempty =>
    obtain rfl : fullName = "" := String.isEmpty_iff.1 hempty
    rfl
  next =>
    rw [joinPath, Text.joined, map_toList_pieces, Text.join_splitOn scopeSeparator_ne_nil,
      String.ofList_toList]

/-! ## Paths -/

/-- No part has a separator in it, and no part with another one behind it ends in a colon. -/
structure ScopesApart (path : List String) : Prop where
  whole : ∀ part ∈ path, ¬ scopeSeparator.toList <:+: part.toList
  ends : ∀ part ∈ path.dropLast, part.toList.getLast? ≠ some ':'

theorem separated_scopes_iff {path : List String} (hne : path ≠ []) :
    Text.Separated scopeSeparator.toList (path.map String.toList) ↔ ScopesApart path := by
  rw [scopeSeparator_toList, Text.separated_pair_iff, ← List.map_dropLast, List.forall_mem_map,
    List.forall_mem_map]
  constructor
  · rintro ⟨-, hwhole, hends⟩
    exact ⟨hwhole, hends⟩
  · rintro ⟨hwhole, hends⟩
    exact ⟨by simpa using hne, hwhole, hends⟩

theorem joinPath_eq_empty_iff {path : List String} :
    joinPath path = "" ↔ path = [] ∨ path = [""] := by
  rw [joinPath, Text.joined, String.ofList_eq_empty_iff,
    Text.join_eq_nil_iff scopeSeparator_ne_nil, List.map_eq_nil_iff]
  refine or_congr_right ⟨fun h => ?_, ?_⟩
  · obtain ⟨part, rfl, hpart⟩ := List.map_eq_singleton_iff.1 h
    rw [String.toList_eq_nil_iff.1 hpart]
  · rintro rfl
    rfl

theorem splitPath_joinPath_iff {path : List String} :
    splitPath (joinPath path) = path ↔ path ≠ [""] ∧ ScopesApart path := by
  by_cases hempty : joinPath path = ""
  · rw [hempty]
    rcases joinPath_eq_empty_iff.1 hempty with rfl | rfl
    · exact iff_of_true rfl ⟨by simp, nofun, nofun⟩
    · exact iff_of_false (by decide) fun h => h.1 rfl
  · obtain ⟨hnil, hblank⟩ := not_or.1 (mt joinPath_eq_empty_iff.2 hempty)
    have hinjective : Function.Injective (List.map String.toList) :=
      List.map_injective_iff.2 fun _ _ => String.toList_injective
    rw [splitPath, if_neg (mt String.isEmpty_iff.1 hempty), ← hinjective.eq_iff, map_toList_pieces,
      joinPath, Text.joined, String.toList_ofList, Text.splitOn_join_iff scopeSeparator_ne_nil,
      separated_scopes_iff hnil]
    exact (and_iff_right hblank).symm

/-- Separators are taken from the left, so a part may begin with a colon. -/
example : splitPath "a:::b::::c:" = ["a", ":b", "", "c:"] := by decide

namespace TypeExpr

/-- Every text is the full name of the name and of the template that are made of it. From its full
name, a path is got back in both ways if its scopes are apart, and only then. The path with nothing
but an empty part is not, as its full name is that of the empty path. -/
theorem path_fullName_inverse (arguments : List TypeExpr) :
    (∀ fullName, (named fullName).fullName? = some fullName ∧
      (applied fullName arguments).fullName? = some fullName) ∧
    ∀ path, (named (joinPath path) = .name path false {} ↔ path ≠ [""] ∧ ScopesApart path) ∧
      (applied (joinPath path) arguments = .template path arguments false ↔
        path ≠ [""] ∧ ScopesApart path) := by
  refine ⟨fun fullName => ?_, fun path => ?_⟩
  · have hjoin := congrArg some (joinPath_splitPath fullName)
    exact ⟨hjoin, hjoin⟩
  · rw [← splitPath_joinPath_iff, named, applied]
    simp

end TypeExpr

end Bindery
