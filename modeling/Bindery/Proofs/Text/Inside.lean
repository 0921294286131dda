import Bindery.Proofs.Text.Occurrences

/-!
# Texts inside texts

`standsIn_joined`: each of several texts stands in what they are joined to.
-/

namespace Bindery.Text

/-- `part` stands in the text, somewhere. -/
def StandsIn (part text : String) : Prop :=
  part.toList <:+: text.toList

namespace StandsIn

variable {part whole text : String}

theorem refl (text : String) : StandsIn text text :=
  List.infix_refl _

theorem trans (h : StandsIn part text) (h' : StandsIn text whole) : StandsIn part whole :=
  List.IsInfix.trans h h'

theorem append (h : StandsIn part text) (behind : String) : StandsIn part (text ++ behind) := by
  rw [StandsIn, String.toList_append]
  exact List.IsInfix.trans h (List.prefix_append _ _).isInfix

theorem prepend (h : StandsIn part text) (before : String) : StandsIn part (before ++ text) := by
  rw [StandsIn, String.toList_append]
  exact List.IsInfix.trans h (List.suffix_append _ _).isInfix

theorem between (before text behind : String) : StandsIn text (before ++ text ++ behind) :=
  ((refl text).prepend before).append behind

end StandsIn

theorem infix_join {sep part : List Char} {parts : List (List Char)} (h : part ∈ parts) :
    part <:+: join sep parts := by
  induction parts with
  | nil => cases h
  | cons first parts ih =>
      cases parts with
      | nil =>
          obtain rfl := List.mem_singleton.1 h
          exact List.infix_refl _
      | cons next parts =>
          rw [join_cons_cons]
          rcases List.mem_cons.1 h with rfl | h
          · exact (List.prefix_append _ _).isInfix
          · exact ((ih h).trans (List.suffix_append _ _).isInfix).trans
              (List.suffix_append _ _).isInfix

theorem standsIn_joined {part : String} {parts : List String} (h : part ∈ parts) (sep : String) :
    StandsIn part (joined sep parts) := by
  rw [StandsIn, joined, String.toList_ofList]
  exact infix_join (List.mem_map_of_mem h)

end Bindery.Text
