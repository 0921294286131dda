import Bindery.Proofs.Json.Integer
import Mathlib.Data.List.DropRight

/-!
# The grammar of JSON

`Source` is what stands in a text, where numbers keep their characters, and `Written` the grammar.
`Written.document`: what is written, that is read.
-/

namespace Bindery.Json

open Text

/-- A value as it stands in a text. A string or a name without a value is one that has half a
surrogate pair. -/
inductive Source where
  | null
  | bool (value : Bool)
  | number (token : Token)
  | string (value : Option String)
  | list (items : List Source)
  | object (members : List (Option String × Source))

/-! ## Grammar -/

/-- What may stand between quotes for a character or a UTF-16 unit. -/
inductive Piece.Spelt : Piece → List Char → Prop where
  | plain {c} : 32 ≤ c.toNat → c ≠ '"' → c ≠ '\\' → Spelt (.char c) [c]
  | escape {c e} : escaped? e = some c → Spelt (.char c) ['\\', e]
  | unit {n a b c d} : Text.hexNumber? [a, b, c, d] = some n →
      Spelt (.unit n) ['\\', 'u', a, b, c, d]

inductive Pieces : List Piece → List Char → Prop where
  | nil : Pieces [] []
  | cons {piece pieces text rest} : piece.Spelt text → Pieces pieces rest →
      Pieces (piece :: pieces) (text ++ rest)

def Blank (cs : List Char) : Prop :=
  ∀ c ∈ cs, isBlank c = true

theorem blank_nil : Blank [] := nofun

def word : Bool → List Char
  | true => ['t', 'r', 'u', 'e']
  | false => ['f', 'a', 'l', 's', 'e']

/-- What is written: a value, a value with blanks around it, or what stands in a container that is
not empty. -/
inductive Source.Part where
  | value (x : Source)
  | element (x : Source)
  | items (xs : List Source)
  | members (ms : List (Option String × Source))

inductive Written : Source.Part → List Char → Prop where
  | null : Written (.value .null) ['n', 'u', 'l', 'l']
  | bool (b : Bool) : Written (.value (.bool b)) (word b)
  | number (t : Token) : Written (.value (.number t)) t.chars
  | string {pieces text} : Pieces pieces text →
      Written (.value (.string (spelledString pieces))) ('"' :: (text ++ ['"']))
  | emptyList {blank} : Blank blank → Written (.value (.list [])) ('[' :: (blank ++ [']']))
  | list {xs text} : Written (.items xs) text →
      Written (.value (.list xs)) ('[' :: (text ++ [']']))
  | emptyObject {blank} : Blank blank →
      Written (.value (.object [])) ('\x7b' :: (blank ++ ['\x7d']))
  | object {ms text} : Written (.members ms) text →
      Written (.value (.object ms)) ('\x7b' :: (text ++ ['\x7d']))
  | element {x before text after} : Blank before → Written (.value x) text → Blank after →
      Written (.element x) (before ++ (text ++ after))
  | lastItem {x text} : Written (.element x) text → Written (.items [x]) text
  | item {x xs text rest} : Written (.element x) text → Written (.items xs) rest →
      Written (.items (x :: xs)) (text ++ ',' :: rest)
  | lastMember {pieces x before key after text} : Blank before → Pieces pieces key → Blank after →
      Written (.element x) text →
      Written (.members [(spelledString pieces, x)])
        (before ++ '"' :: (key ++ '"' :: (after ++ ':' :: text)))
  | member {pieces x ms before key after text rest} : Blank before → Pieces pieces key →
      Blank after → Written (.element x) text → Written (.members ms) rest →
      Written (.members ((spelledString pieces, x) :: ms))
        (before ++ '"' :: (key ++ '"' :: (after ++ ':' :: (text ++ ',' :: rest))))

theorem Written.alone {x : Source} {text : List Char} (h : Written (.value x) text) :
    Written (.element x) text := by
  have helement := Written.element blank_nil h blank_nil
  rwa [List.nil_append, List.append_nil] at helement

/-! ## What it says -/

namespace Source

mutual
/-- What a document says that holds the value. -/
def node : Source → Node
  | .null => .null
  | .bool b => .bool b
  | .number t => t.numeral.node
  | .string none => .unreadable
  | .string (some s) => .string s
  | .list items => .list (itemNodes items)
  | .object members => .table (memberNodes members)

def itemNodes : List Source → List Node
  | [] => []
  | item :: items => item.node :: itemNodes items

def memberNodes : List (Option String × Source) → List (Option String × Node)
  | [] => []
  | (name, value) :: members => (name, value.node) :: memberNodes members
end

theorem itemNodes_eq_map (items : List Source) : itemNodes items = items.map node := by
  induction items with
  | nil => rfl
  | cons item items ih => simp [itemNodes, ih]

theorem memberNodes_eq_map (members : List (Option String × Source)) :
    memberNodes members = members.map fun m => (m.1, m.2.node) := by
  induction members with
  | nil => rfl
  | cons m members ih => simp [memberNodes, ih]

end Source

/-! ## Reading what stands between quotes -/

theorem scanQuoted_cons {c : Char} (hcontrol : 32 ≤ c.toNat) (hquote : c ≠ '"')
    (hbackslash : c ≠ '\\') (rest : List Char) :
    scanQuoted (c :: rest) = (scanQuoted rest).map fun p => (.char c :: p.1, p.2) := by
  cases h : scanQuoted rest <;> simp [scanQuoted, hbackslash, hcontrol, h]

theorem scanQuoted_escape {c e : Char} (h : escaped? e = some c) (rest : List Char) :
    scanQuoted ('\\' :: e :: rest) = (scanQuoted rest).map fun p => (.char c :: p.1, p.2) := by
  have hu : e ≠ 'u' := by
    rintro rfl
    cases h
  cases hrest : scanQuoted rest <;> simp [scanQuoted, hu, h, hrest]

theorem scanQuoted_unit {n : Nat} {a b c d : Char} (h : Text.hexNumber? [a, b, c, d] = some n)
    (rest : List Char) :
    scanQuoted ('\\' :: 'u' :: a :: b :: c :: d :: rest) =
      (scanQuoted rest).map fun p => (.unit n :: p.1, p.2) := by
  cases hrest : scanQuoted rest <;> simp [scanQuoted, h, hrest]

theorem Piece.Spelt.scan {piece : Piece} {text : List Char} (h : piece.Spelt text)
    (rest : List Char) :
    scanQuoted (text ++ rest) = (scanQuoted rest).map fun p => (piece :: p.1, p.2) := by
  cases h with
  | plain hcontrol hquote hbackslash => exact scanQuoted_cons hcontrol hquote hbackslash rest
  | escape he => exact scanQuoted_escape he rest
  | unit hn => exact scanQuoted_unit hn rest

theorem Pieces.scan {pieces : List Piece} {text : List Char} (h : Pieces pieces text)
    (rest : List Char) : scanQuoted (text ++ '"' :: rest) = some (pieces, rest) := by
  induction h with
  | nil => rfl
  | cons hpiece _ ih => rw [List.append_assoc, hpiece.scan, ih, Option.map_some]

/-! ## Blanks -/

@[simp] theorem skipBlanks_cons {c : Char} (h : isBlank c = false) (cs : List Char) :
    skipBlanks (c :: cs) = c :: cs :=
  List.dropWhile_cons_of_neg (by simp [h])

theorem skipBlanks_append {blank : List Char} (h : Blank blank) (cs : List Char) :
    skipBlanks (blank ++ cs) = skipBlanks cs :=
  List.dropWhile_append_of_pos h

theorem skipBlanks_skipBlanks (cs : List Char) : skipBlanks (skipBlanks cs) = skipBlanks cs :=
  List.dropWhile_idempotent _ cs

theorem readValue_skipBlanks (n : Nat) (cs : List Char) :
    readValue n (skipBlanks cs) = readValue n cs := by
  cases n with
  | zero => rfl
  | succ n => rw [readValue, readValue, skipBlanks_skipBlanks]

/-! ## Reading values -/

/-- What may stand behind a value: nothing, a blank, or what ends the value or its container. -/
def Stops (rest : List Char) : Prop :=
  Begins (fun c => isBlank c = true ∨ c = ',' ∨ c = ']' ∨ c = '\x7d') rest

/-- What may stand behind a value and the blanks after it. -/
def Closes (rest : List Char) : Prop :=
  Begins (fun c => c = ',' ∨ c = ']' ∨ c = '\x7d') rest

theorem Closes.comma (rest : List Char) : Closes (',' :: rest) :=
  begins_cons (.inl rfl) rest

theorem Closes.bracket (rest : List Char) : Closes (']' :: rest) :=
  begins_cons (.inr (.inl rfl)) rest

theorem Closes.brace (rest : List Char) : Closes ('\x7d' :: rest) :=
  begins_cons (.inr (.inr rfl)) rest

theorem Closes.skipBlanks {rest : List Char} (h : Closes rest) : skipBlanks rest = rest := by
  cases rest with
  | nil => rfl
  | cons c rest =>
      have hblank : isBlank c = false := by
        rcases h c rfl with rfl | rfl | rfl <;> rfl
      exact skipBlanks_cons hblank rest

theorem Closes.stops {blank rest : List Char} (h : Closes rest) (hblank : Blank blank) :
    Stops (blank ++ rest) :=
  Begins.append (fun c hc => .inl (hblank c (List.mem_of_mem_head? hc))) fun c hc => .inr (h c hc)

theorem Stops.ends {rest : List Char} (h : Stops rest) : Numeral.Ends rest := by
  intro c hc
  rcases h c hc with hblank | rfl | rfl | rfl
  · simp only [isBlank, Bool.or_eq_true, decide_eq_true_eq] at hblank
    rcases hblank with ((rfl | rfl) | rfl) | rfl <;> decide
  all_goals decide

/-- A number starts with a digit or a sign. -/
theorem Token.exists_cons (t : Token) :
    ∃ c cs, t.chars = c :: cs ∧ ∀ d : Char, d ≠ '-' → d.isDigit = false → c ≠ d := by
  obtain ⟨chars, numeral, hspelt⟩ := t
  obtain @⟨negative, whole, fraction, exponent, f, e, hwhole, hf, he⟩ := hspelt
  obtain ⟨c, cs, rfl⟩ := List.exists_cons_of_ne_nil hwhole.ne_nil
  cases negative with
  | false =>
      refine ⟨c, cs ++ (f ++ e), rfl, ?_⟩
      rintro d - hdigit rfl
      rw [hwhole.isDigit c List.mem_cons_self] at hdigit
      cases hdigit
  | true => exact ⟨'-', c :: cs ++ (f ++ e), rfl, fun d hsign _ => Ne.symm hsign⟩

theorem isBlank_eq_false {c : Char} (h : ∀ d : Char, d ≠ '-' → d.isDigit = false → c ≠ d) :
    isBlank c = false := by
  simp [isBlank, h ' ' (by decide) (by decide), h '\n' (by decide) (by decide),
    h '\t' (by decide) (by decide), h '\r' (by decide) (by decide)]

theorem readValue_number (t : Token) {rest : List Char} (hrest : Stops rest) (n : Nat) :
    readValue (n + 1) (t.chars ++ rest) = (t.numeral.node, some rest) := by
  have hscan := t.spelt.scan hrest.ends
  obtain ⟨c, cs, hcons, hne⟩ := t.exists_cons
  rw [hcons] at hscan
  rw [hcons, List.cons_append, readValue, skipBlanks_cons (isBlank_eq_false hne)]
  split
  next heq => exact absurd (List.cons.inj heq).1 (hne 'n' (by decide) (by decide))
  next heq => exact absurd (List.cons.inj heq).1 (hne 't' (by decide) (by decide))
  next heq => exact absurd (List.cons.inj heq).1 (hne 'f' (by decide) (by decide))
  next heq => exact absurd (List.cons.inj heq).1 (hne '"' (by decide) (by decide))
  next heq => exact absurd (List.cons.inj heq).1 (hne '[' (by decide) (by decide))
  next heq => exact absurd (List.cons.inj heq).1 (hne '\x7b' (by decide) (by decide))
  next => simp only [← List.cons_append, hscan]

/-- The first character of a value. -/
theorem Written.exists_cons {x : Source} {text : List Char} (h : Written (.value x) text) :
    ∃ c cs, text = c :: cs ∧ isBlank c = false ∧ c ≠ ']' := by
  cases h with
  | bool b => cases b <;> exact ⟨_, _, rfl, by decide, by decide⟩
  | number t =>
      obtain ⟨c, cs, hcons, hne⟩ := t.exists_cons
      exact ⟨c, cs, hcons, isBlank_eq_false hne, hne ']' (by decide) (by decide)⟩
  | _ => exact ⟨_, _, rfl, by decide, by decide⟩

theorem Written.skipBlanks_ne {x : Source} {text : List Char} (h : Written (.element x) text)
    (rest ds : List Char) : skipBlanks (text ++ rest) ≠ ']' :: ds := by
  cases h with
  | element hbefore hvalue _ =>
      obtain ⟨c, cs, rfl, hblank, hend⟩ := hvalue.exists_cons
      rw [List.append_assoc, skipBlanks_append hbefore, List.cons_append, List.cons_append,
        skipBlanks_cons hblank]
      exact fun heq => hend (List.cons.inj heq).1

/-- What reading a text finds: the part that is written there, and all that follows it. -/
def Source.Part.ReadFrom : Source.Part → List Char → Prop
  | .value x, text => ∀ rest n, Stops rest → 2 * text.length ≤ n →
    readValue n (text ++ rest) = (x.node, some rest)
  | .element x, text => ∀ rest n, Closes rest → 2 * text.length ≤ n →
    ∃ left, readValue n (text ++ rest) = (x.node, some left) ∧ skipBlanks left = rest
  | .items xs, text => ∀ first rest n, 2 * text.length + 1 ≤ n →
    readItems n first (text ++ ']' :: rest) = (Source.itemNodes xs, some rest)
  | .members ms, text => ∀ first rest n, 2 * text.length + 1 ≤ n →
    readMembers n first (text ++ '\x7d' :: rest) = (Source.memberNodes ms, some rest)

section

variable {n : Nat} {first : Bool} {node : Node} {cs left rest : List Char}

theorem readValue_list {nodes : List Node} {after : Option (List Char)}
    (h : readItems n true cs = (nodes, after)) :
    readValue (n + 1) ('[' :: cs) = (.list nodes, after) := by
  rw [readValue, skipBlanks_cons (by decide)]
  simp [h]

theorem readValue_object {entries : List (Option String × Node)} {after : Option (List Char)}
    (h : readMembers n true cs = (entries, after)) :
    readValue (n + 1) ('\x7b' :: cs) = (.table entries, after) := by
  rw [readValue, skipBlanks_cons (by decide)]
  simp [h]

theorem readItems_empty {blank : List Char} (h : Blank blank) :
    readItems (n + 1) true (blank ++ ']' :: rest) = ([], some rest) := by
  rw [readItems, skipBlanks_append h, skipBlanks_cons (by decide)]
  rfl

theorem readMembers_empty {blank : List Char} (h : Blank blank) :
    readMembers (n + 1) true (blank ++ '\x7d' :: rest) = ([], some rest) := by
  rw [readMembers, skipBlanks_append h, skipBlanks_cons (by decide)]
  rfl

theorem readItems_last (hend : ∀ ds, skipBlanks cs ≠ ']' :: ds)
    (h : readValue n cs = (node, some left)) (hleft : skipBlanks left = ']' :: rest) :
    readItems (n + 1) first cs = ([node], some rest) := by
  rw [readItems]
  split
  next heq => exact absurd heq (hend _)
  next => simp [readValue_skipBlanks, h, hleft]

theorem readItems_more {nodes : List Node} {after : Option (List Char)}
    (hend : ∀ ds, skipBlanks cs ≠ ']' :: ds) (h : readValue n cs = (node, some left))
    (hleft : skipBlanks left = ',' :: rest) (hrest : readItems n false rest = (nodes, after)) :
    readItems (n + 1) first cs = (node :: nodes, after) := by
  rw [readItems]
  split
  next heq => exact absurd heq (hend _)
  next => simp [readValue_skipBlanks, h, hleft, hrest]

variable {pieces : List Piece} {before key blank : List Char} (hbefore : Blank before)
  (hkey : Pieces pieces key) (hblank : Blank blank)

include hbefore hkey hblank

theorem readMembers_last (h : readValue n cs = (node, some left))
    (hleft : skipBlanks left = '\x7d' :: rest) :
    readMembers (n + 1) first (before ++ '"' :: (key ++ '"' :: (blank ++ ':' :: cs))) =
      ([(spelledString pieces, node)], some rest) := by
  have hcolon : skipBlanks (':' :: cs) = ':' :: cs := skipBlanks_cons (by decide) cs
  rw [readMembers, skipBlanks_append hbefore, skipBlanks_cons (by decide)]
  simp [hkey.scan, skipBlanks_append hblank, hcolon, h, hleft]

theorem readMembers_more {entries : List (Option String × Node)} {after : Option (List Char)}
    (h : readValue n cs = (node, some left)) (hleft : skipBlanks left = ',' :: rest)
    (hrest : readMembers n false rest = (entries, after)) :
    readMembers (n + 1) first (before ++ '"' :: (key ++ '"' :: (blank ++ ':' :: cs))) =
      ((spelledString pieces, node) :: entries, after) := by
  have hcolon : skipBlanks (':' :: cs) = ':' :: cs := skipBlanks_cons (by decide) cs
  rw [readMembers, skipBlanks_append hbefore, skipBlanks_cons (by decide)]
  simp [hkey.scan, skipBlanks_append hblank, hcolon, h, hleft, hrest]

end

theorem Written.read {part : Source.Part} {text : List Char} (h : Written part text) :
    part.ReadFrom text := by
  -- A container spends one step on itself and has two brackets; an item spends one, and what ends
  -- it pays for that.
  induction h with
  | null =>
      rintro rest (_ | n) - hn
      · contradiction
      · simp [readValue, skipBlanks, isBlank, Source.node]
  | bool b =>
      rintro rest (_ | n) - hn
      · cases b <;> contradiction
      · cases b <;> simp [readValue, word, skipBlanks, isBlank, Source.node]
  | number t =>
      rintro rest (_ | n) hrest hn
      · obtain ⟨c, cs, hcons, -⟩ := t.exists_cons
        simp [hcons] at hn
      · exact readValue_number t hrest n
  | @string pieces text hpieces =>
      rintro rest (_ | n) - hn
      · contradiction
      · cases hvalue : spelledString pieces <;>
          simp [readValue, skipBlanks, isBlank, hpieces.scan, hvalue, Source.node]
  | emptyList hblank =>
      rintro rest (_ | _ | n) - hn
      · contradiction
      · simp at hn
        omega
      · simpa [Source.node, Source.itemNodes] using readValue_list (readItems_empty hblank)
  | list _ ih =>
      rintro rest (_ | n) - hn
      · contradiction
      · simpa [Source.node] using readValue_list (ih true rest n (by simp at hn; omega))
  | emptyObject hblank =>
      rintro rest (_ | _ | n) - hn
      · contradiction
      · simp at hn
        omega
      · simpa [Source.node, Source.memberNodes] using readValue_object (readMembers_empty hblank)
  | object _ ih =>
      rintro rest (_ | n) - hn
      · contradiction
      · simpa [Source.node] using readValue_object (ih true rest n (by simp at hn; omega))
  | @element x before text after hbefore _ hafter ih =>
      intro rest n hrest hn
      simp only [List.length_append] at hn
      refine ⟨after ++ rest, ?_, by rw [skipBlanks_append hafter, hrest.skipBlanks]⟩
      rw [List.append_assoc, ← readValue_skipBlanks, skipBlanks_append hbefore,
        readValue_skipBlanks, List.append_assoc]
      exact ih (after ++ rest) n (hrest.stops hafter) (by omega)
  | lastItem hvalue ih =>
      rintro first rest (_ | n) hn
      · contradiction
      · obtain ⟨left, hread, hleft⟩ := ih (']' :: rest) n (.bracket rest) (by omega)
        exact readItems_last (hvalue.skipBlanks_ne _) hread hleft
  | @item x xs text others hvalue _ ihvalue ihitems =>
      rintro first rest (_ | n) hn
      · contradiction
      · simp only [List.length_append, List.length_cons] at hn
        obtain ⟨left, hread, hleft⟩ :=
          ihvalue (',' :: (others ++ ']' :: rest)) n (.comma _) (by omega)
        rw [List.append_assoc, List.cons_append]
        exact readItems_more (hvalue.skipBlanks_ne _) hread hleft (ihitems false rest n (by omega))
  | @lastMember pieces x before key after text hbefore hkey hafter _ ih =>
      rintro first rest (_ | n) hn
      · contradiction
      · simp only [List.length_append, List.length_cons] at hn
        obtain ⟨left, hread, hleft⟩ := ih ('\x7d' :: rest) n (.brace rest) (by omega)
        simpa [Source.memberNodes] using readMembers_last hbefore hkey hafter hread hleft
  | @member pieces x ms before key after text others hbefore hkey hafter _ _ ihvalue ihmembers =>
      rintro first rest (_ | n) hn
      · contradiction
      · simp only [List.length_append, List.length_cons] at hn
        obtain ⟨left, hread, hleft⟩ :=
          ihvalue (',' :: (others ++ '\x7d' :: rest)) n (.comma _) (by omega)
        simpa [Source.memberNodes] using readMembers_more hbefore hkey hafter hread hleft
          (ihmembers false rest n (by omega))

/-- What is written, that the document says. -/
theorem Written.document {x : Source} {text : String} (h : Written (.element x) text.toList) :
    document text = ⟨.json, x.node, true⟩ := by
  obtain ⟨left, hread, hleft⟩ := h.read [] (2 * text.toList.length + 2) begins_nil (by omega)
  rw [List.append_nil] at hread
  rw [Json.document, hread]
  simp [hleft]

end Bindery.Json
