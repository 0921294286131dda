import Bindery.Proofs.Json.Source

/-!
# Texts that spell a value

`Spells` is the part of the grammar without blanks and fractions, which is all that is printed.
`Spells.written`: it is a part of the grammar. `Spells.document`: so what a text spells, it is read
as.
-/

namespace Bindery.Json

/-- A character between quotes. -/
inductive Letter : Char → List Char → Prop where
  | plain {c} : 32 ≤ c.toNat → c ≠ '"' → c ≠ '\\' → Letter c [c]
  | escape {c e} : escaped? e = some c → Letter c ['\\', e]
  /-- By its number; only the control characters are written so. -/
  | unit {n} : n < 32 → Letter (Char.ofNat n)
      ['\\', 'u', '0', '0', Text.hexDigit (n / 16), Text.hexDigit (n % 16)]

inductive Letters : List Char → List Char → Prop where
  | nil : Letters [] []
  | cons {c cs text rest} : Letter c text → Letters cs rest → Letters (c :: cs) (text ++ rest)

/-- What a text can spell: a value, or what stands in a container that is not empty. -/
inductive Part where
  | value (node : Node)
  | items (nodes : List Node)
  | members (entries : List (Option String × Node))

inductive Spells : Part → List Char → Prop where
  | null : Spells (.value .null) ['n', 'u', 'l', 'l']
  | bool (b : Bool) : Spells (.value (.bool b)) (word b)
  | integer {i} : FitsWord i → Spells (.value (.integer i)) (integerText i)
  | string {s text} : Letters s.toList text →
      Spells (.value (.string s)) ('"' :: (text ++ ['"']))
  | emptyList : Spells (.value (.list [])) ['[', ']']
  | list {nodes text} : Spells (.items nodes) text →
      Spells (.value (.list nodes)) ('[' :: (text ++ [']']))
  | emptyTable : Spells (.value (.table [])) ['\x7b', '\x7d']
  | table {entries text} : Spells (.members entries) text →
      Spells (.value (.table entries)) ('\x7b' :: (text ++ ['\x7d']))
  | lastItem {node text} : Spells (.value node) text → Spells (.items [node]) text
  | item {node nodes text rest} : Spells (.value node) text → Spells (.items nodes) rest →
      Spells (.items (node :: nodes)) (text ++ ',' :: rest)
  | lastMember {name node key text} : Letters name.toList key → Spells (.value node) text →
      Spells (.members [(some name, node)]) ('"' :: (key ++ '"' :: ':' :: text))
  | member {name node entries key text rest} : Letters name.toList key →
      Spells (.value node) text → Spells (.members entries) rest →
      Spells (.members ((some name, node) :: entries))
        ('"' :: (key ++ '"' :: ':' :: (text ++ ',' :: rest)))

/-! ## The grammar -/

theorem hexNumber?_hexDigit {n : Nat} (h : n < 32) :
    Text.hexNumber? ['0', '0', Text.hexDigit (n / 16), Text.hexDigit (n % 16)] = some n := by
  revert n
  decide

theorem spelled_unit {n : Nat} (h : n < 32) (pieces : List Piece) :
    spelled (.unit n :: pieces) = (spelled pieces).map (Char.ofNat n :: ·) := by
  have hhigh : isHighSurrogate n = false := by simp [isHighSurrogate]; omega
  have hlow : isLowSurrogate n = false := by simp [isLowSurrogate]; omega
  match pieces with
  | [] => simp [spelled, hhigh, hlow]
  | .char c :: pieces => simp [spelled, hhigh, hlow]
  | .unit m :: pieces => simp [spelled, hhigh, hlow]

/-- A letter is one piece, which spells its character. -/
theorem Letter.exists_piece {c : Char} {text : List Char} (h : Letter c text) :
    ∃ piece : Piece, piece.Spelt text ∧
      ∀ pieces, spelled (piece :: pieces) = (spelled pieces).map (c :: ·) := by
  cases h with
  | plain hcontrol hquote hbackslash =>
      exact ⟨.char c, .plain hcontrol hquote hbackslash, fun _ => rfl⟩
  | escape he => exact ⟨.char c, .escape he, fun _ => rfl⟩
  | @unit n hn => exact ⟨.unit n, .unit (hexNumber?_hexDigit hn), spelled_unit hn⟩

theorem Letters.exists_pieces {cs text : List Char} (h : Letters cs text) :
    ∃ pieces, Pieces pieces text ∧ spelled pieces = some cs := by
  induction h with
  | nil => exact ⟨[], .nil, rfl⟩
  | cons hletter _ ih =>
      obtain ⟨piece, hpiece, hspelled⟩ := hletter.exists_piece
      obtain ⟨pieces, hpieces, hrest⟩ := ih
      exact ⟨piece :: pieces, .cons hpiece hpieces, by rw [hspelled, hrest, Option.map_some]⟩

theorem Letters.exists_spelledString {s : String} {text : List Char} (h : Letters s.toList text) :
    ∃ pieces, Pieces pieces text ∧ spelledString pieces = some s := by
  obtain ⟨pieces, hpieces, hspelled⟩ := h.exists_pieces
  exact ⟨pieces, hpieces, by simp [spelledString, hspelled]⟩

/-- The part is written as a text of the grammar. -/
def Part.WrittenAs : Part → List Char → Prop
  | .value node, text => ∃ x : Source, x.node = node ∧ Written (.value x) text
  | .items nodes, text => ∃ xs, Source.itemNodes xs = nodes ∧ Written (.items xs) text
  | .members entries, text => ∃ ms, Source.memberNodes ms = entries ∧ Written (.members ms) text

theorem Spells.written {part : Part} {text : List Char} (h : Spells part text) :
    part.WrittenAs text := by
  induction h with
  | null => exact ⟨.null, rfl, .null⟩
  | bool b => exact ⟨.bool b, rfl, .bool b⟩
  | @integer i hi =>
      refine ⟨.number ⟨integerText i, _, Numeral.spelt_integerText i⟩, ?_, .number _⟩
      rw [Source.node, Numeral.node, (Numeral.spelt_integerText i).integer?_eq_some_iff.2 ⟨hi, rfl⟩]
  | string hletters =>
      obtain ⟨pieces, hpieces, hspelled⟩ := hletters.exists_spelledString
      exact ⟨.string (spelledString pieces), by rw [hspelled, Source.node], .string hpieces⟩
  | emptyList => exact ⟨.list [], rfl, .emptyList blank_nil⟩
  | list _ ih =>
      obtain ⟨xs, rfl, hxs⟩ := ih
      exact ⟨.list xs, rfl, .list hxs⟩
  | emptyTable => exact ⟨.object [], rfl, .emptyObject blank_nil⟩
  | table _ ih =>
      obtain ⟨ms, rfl, hms⟩ := ih
      exact ⟨.object ms, rfl, .object hms⟩
  | lastItem _ ih =>
      obtain ⟨x, rfl, hx⟩ := ih
      exact ⟨[x], rfl, .lastItem hx.alone⟩
  | item _ _ ihvalue ihitems =>
      obtain ⟨x, rfl, hx⟩ := ihvalue
      obtain ⟨xs, rfl, hxs⟩ := ihitems
      exact ⟨x :: xs, rfl, .item hx.alone hxs⟩
  | lastMember hkey _ ih =>
      obtain ⟨pieces, hpieces, hspelled⟩ := hkey.exists_spelledString
      obtain ⟨x, rfl, hx⟩ := ih
      exact ⟨[(spelledString pieces, x)], by rw [hspelled]; rfl,
        .lastMember blank_nil hpieces blank_nil hx.alone⟩
  | member hkey _ _ ihvalue ihmembers =>
      obtain ⟨pieces, hpieces, hspelled⟩ := hkey.exists_spelledString
      obtain ⟨x, rfl, hx⟩ := ihvalue
      obtain ⟨ms, rfl, hms⟩ := ihmembers
      exact ⟨(spelledString pieces, x) :: ms, by rw [hspelled]; rfl,
        .member blank_nil hpieces blank_nil hx.alone hms⟩

theorem Written.document_ofList {x : Source} {text : List Char} (h : Written (.value x) text) :
    Json.document (String.ofList text) = ⟨.json, x.node, true⟩ := by
  have htext : Written (.element x) (String.ofList text).toList := by
    rw [String.toList_ofList]
    exact h.alone
  exact htext.document

/-- What a text spells is what the document says. -/
theorem Spells.document {node : Node} {text : List Char} (h : Spells (.value node) text) :
    document (String.ofList text) = ⟨.json, node, true⟩ := by
  obtain ⟨x, rfl, hx⟩ := h.written
  exact hx.document_ofList

/-- A spelt value has no place that cannot be read. -/
def Part.Readable : Part → Prop
  | .value node => node.readable = true
  | .items nodes => Node.itemsReadable nodes = true
  | .members entries => Node.entriesReadable entries = true

theorem Spells.readable {part : Part} {text : List Char} (h : Spells part text) :
    part.Readable := by
  induction h with
  | list _ ih => exact ih
  | table _ ih => exact ih
  | lastItem _ ih => simpa [Part.Readable, Node.itemsReadable] using ih
  | item _ _ ihvalue ihitems => exact Bool.and_eq_true_iff.2 ⟨ihvalue, ihitems⟩
  | lastMember _ _ ih => simpa [Part.Readable, Node.entriesReadable] using ih
  | member _ _ _ ihvalue ihmembers => exact Bool.and_eq_true_iff.2 ⟨ihvalue, ihmembers⟩
  | _ => rfl

/-! ## Control characters -/

open Text

theorem le_toNat_of_escaped? {c e : Char} (h : escaped? e = some c) : 32 ≤ e.toNat := by
  have hnone : ∀ n < 32, escaped? (Char.ofNat n) = none := by decide
  by_contra hlt
  have he := hnone e.toNat (by omega)
  rw [Char.ofNat_toNat, h] at he
  cases he

theorem Letter.controlFree {c : Char} {text : List Char} (h : Letter c text) :
    ControlFree text := by
  cases h with
  | plain hcontrol _ _ => simpa [ControlFree] using hcontrol
  | escape he => simpa using le_toNat_of_escaped? he
  | @unit n hn =>
      revert n
      decide

theorem Letters.controlFree {cs text : List Char} (h : Letters cs text) : ControlFree text := by
  induction h with
  | nil => nofun
  | cons hletter _ ih => exact controlFree_append.2 ⟨hletter.controlFree, ih⟩

/-- A text without blanks has no line breaks either. -/
theorem Spells.controlFree {part : Part} {text : List Char} (h : Spells part text) :
    ControlFree text := by
  induction h with
  | null => decide
  | bool b => cases b <;> decide
  | integer _ =>
      intro c hc
      rcases mem_integerText hc with rfl | hdigit
      · decide
      · exact Nat.le_trans (by decide) (UInt32.le_iff_toNat_le.1 (of_decide_eq_true
          (Bool.and_eq_true_iff.1 hdigit).1))
  | string hletters => simp [hletters.controlFree]
  | emptyList => decide
  | list _ ih => simp [ih]
  | emptyTable => decide
  | table _ ih => simp [ih]
  | lastItem _ ih => exact ih
  | item _ _ ihvalue ihitems => simp [ihvalue, ihitems]
  | lastMember hkey _ ih => simp [hkey.controlFree, ih]
  | member hkey _ _ ihvalue ihmembers => simp [hkey.controlFree, ihvalue, ihmembers]

/-! ## Printed values -/

mutual
/-- What a document says that holds the value. -/
def node : Json → Node
  | .null => .null
  | .bool b => .bool b
  | .integer i => .integer i
  | .real x => .real x
  | .string s => .string s
  | .list items => .list (itemNodes items)
  | .object members => .table (memberNodes members)

def itemNodes : List Json → List Node
  | [] => []
  | item :: items => item.node :: itemNodes items

def memberNodes : List (String × Json) → List (Option String × Node)
  | [] => []
  | (name, value) :: members => (some name, value.node) :: memberNodes members
end

theorem memberNodes_eq_map (members : List (String × Json)) :
    memberNodes members = members.map fun m => (some m.1, m.2.node) := by
  induction members with
  | nil => rfl
  | cons m members ih => simp [memberNodes, ih]

theorem itemNodes_eq_map (items : List Json) : itemNodes items = items.map node := by
  induction items with
  | nil => rfl
  | cons item items ih => simp [itemNodes, ih]

/-- The value is spelt by its text. -/
def Spelt (j : Json) : Prop :=
  Spells (.value j.node) j.compactText

theorem letter_quotedChar (c : Char) : Letter c (quotedChar c) := by
  rw [quotedChar]
  split_ifs
  -- Those that have an escape of their own, then those that need none, then those without one.
  any_goals
    subst_vars
    exact .escape rfl
  · exact .plain ‹_› ‹_› ‹_›
  · have hunit := Letter.unit (n := c.toNat) (by omega)
    rwa [Char.ofNat_toNat] at hunit

theorem letters_flatMap_quotedChar (cs : List Char) : Letters cs (cs.flatMap quotedChar) := by
  induction cs with
  | nil => exact .nil
  | cons c cs ih => exact .cons (letter_quotedChar c) ih

namespace Written

variable {x : Source} {ms : List (Option String × Source)} {text rest : List Char}

theorem lastNamed (name : String) (h : Written (.element x) text) :
    Written (.members [(some name, x)]) (quoted name.toList ++ ':' :: text) := by
  obtain ⟨pieces, hpieces, hspelled⟩ :=
    (letters_flatMap_quotedChar name.toList).exists_spelledString
  have hmember := Written.lastMember blank_nil hpieces blank_nil h
  rw [hspelled] at hmember
  simpa [quoted] using hmember

theorem named (name : String) (h : Written (.element x) text) (hrest : Written (.members ms) rest) :
    Written (.members ((some name, x) :: ms))
      (quoted name.toList ++ ':' :: (text ++ ',' :: rest)) := by
  obtain ⟨pieces, hpieces, hspelled⟩ :=
    (letters_flatMap_quotedChar name.toList).exists_spelledString
  have hmember := Written.member blank_nil hpieces blank_nil h hrest
  rw [hspelled] at hmember
  simpa [quoted] using hmember

end Written

theorem spelt_bool (b : Bool) : (bool b).Spelt := by
  cases b <;> exact .bool _

theorem spelt_integer {i : Int} (h : FitsWord i) : (integer i).Spelt :=
  .integer h

theorem spelt_string (s : String) : (string s).Spelt :=
  .string (letters_flatMap_quotedChar s.toList)

theorem spelt_list {items : List Json} (h : ∀ item ∈ items, item.Spelt) : (list items).Spelt := by
  cases items with
  | nil => exact .emptyList
  | cons item items =>
      refine .list ?_
      induction items generalizing item with
      | nil => exact .lastItem (h item (by simp))
      | cons next items ih =>
          exact .item (h item (by simp)) (ih next fun i hi => h i (List.mem_cons_of_mem item hi))

theorem spelt_object {members : List (String × Json)} (h : ∀ m ∈ members, m.2.Spelt) :
    (object members).Spelt := by
  cases members with
  | nil => exact .emptyTable
  | cons m members =>
      refine .table ?_
      induction members generalizing m with
      | nil =>
          have hlast := Spells.lastMember (letters_flatMap_quotedChar m.1.toList) (h m (by simp))
          simpa [compactMembers, memberNodes, quoted] using hlast
      | cons next members ih =>
          have hmore := Spells.member (letters_flatMap_quotedChar m.1.toList) (h m (by simp))
            (ih next fun i hi => h i (List.mem_cons_of_mem m hi))
          simpa [compactMembers, memberNodes, quoted] using hmore

theorem spelt_strings (names : List String) : (strings names).Spelt :=
  spelt_list (List.forall_mem_map.2 fun name _ => spelt_string name)

end Bindery.Json
