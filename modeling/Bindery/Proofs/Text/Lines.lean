import Bindery.Proofs.Text.Split

/-!
# Lines of a text

`pieces_lines`: a text of lines, each with a line feed behind it, is cut at the line feeds into
these lines, if there is none in them.
-/

namespace Bindery.Text

/-- There is no line feed in the text. -/
def OneLine (text : String) : Prop :=
  '\n' ∉ text.toList

instance : DecidablePred OneLine :=
  fun text => inferInstanceAs (Decidable ('\n' ∉ text.toList))

@[simp] theorem oneLine_append {a b : String} : OneLine (a ++ b) ↔ OneLine a ∧ OneLine b := by
  simp [OneLine]

theorem OneLine.between {left inner right : String} (hleft : OneLine left) (h : OneLine inner)
    (hright : OneLine right) : OneLine (left ++ inner ++ right) :=
  oneLine_append.2 ⟨oneLine_append.2 ⟨hleft, h⟩, hright⟩

theorem oneLine_joined {sep : String} {parts : List String} (hsep : OneLine sep)
    (h : ∀ part ∈ parts, OneLine part) : OneLine (joined sep parts) := by
  intro hmem
  rcases mem_joined hmem with hmem | ⟨part, hpart, hmem⟩
  · exact hsep hmem
  · exact h part hpart hmem

theorem oneLine_replaced {old new text : String} (hnew : OneLine new) (h : OneLine text) :
    OneLine (replaced old new text) := by
  intro hmem
  rw [replaced, String.toList_ofList] at hmem
  rcases mem_replace hmem with hmem | hmem
  · exact hnew hmem
  · exact h hmem

theorem oneLine_repr (n : Nat) : OneLine n.repr := by
  intro hmem
  rw [Nat.toList_repr] at hmem
  exact absurd (Nat.isDigit_of_mem_toDigits (by decide) (by decide) hmem) (by decide)

theorem pieces_lines {lines : List String} (h : ∀ line ∈ lines, OneLine line) :
    pieces "\n" (String.join (lines.map (· ++ "\n"))) = lines ++ [""] := by
  have htext : (String.join (lines.map (· ++ "\n"))).toList =
      (lines.map String.toList).flatMap (· ++ ['\n']) := by
    simp [String.toList_join, List.flatMap_map]
  have hsplit := splitOn_flatMap_concat (List.forall_mem_map.2 h)
  rw [pieces, htext, show "\n".toList = ['\n'] from rfl, hsplit]
  simp

end Bindery.Text
