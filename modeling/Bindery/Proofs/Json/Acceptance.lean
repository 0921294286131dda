import Bindery.Proofs.Json.Source

/-!
# What is read was written

`complete_iff`: the texts that are read to their end are those of the grammar.
-/

namespace Bindery.Json

theorem exists_blank (cs : List Char) : ∃ blank, Blank blank ∧ cs = blank ++ skipBlanks cs :=
  ⟨cs.takeWhile isBlank, fun _ => List.mem_takeWhile_imp, List.takeWhile_append_dropWhile.symm⟩

theorem exists_pieces {cs rest : List Char} {pieces : List Piece}
    (h : scanQuoted cs = some (pieces, rest)) :
    ∃ text, Pieces pieces text ∧ cs = text ++ '"' :: rest := by
  fun_induction scanQuoted cs generalizing pieces with
  | case1 => cases h
  | case2 =>
      obtain ⟨rfl, rfl⟩ := Prod.mk.inj (Option.some.inj h)
      exact ⟨[], .nil, rfl⟩
  | case3 a b c d cs ih =>
      simp only [Option.bind_eq_bind, Option.bind_eq_some_iff, Prod.exists] at h
      obtain ⟨n, hn, later, left, hlater, h⟩ := h
      obtain ⟨rfl, rfl⟩ := Prod.mk.inj (Option.some.inj h)
      obtain ⟨text, hpieces, rfl⟩ := ih hlater
      exact ⟨_, .cons (.unit hn) hpieces, rfl⟩
  | case4 e cs _ ih =>
      simp only [Option.bind_eq_bind, Option.bind_eq_some_iff, Prod.exists] at h
      obtain ⟨c, hc, later, left, hlater, h⟩ := h
      obtain ⟨rfl, rfl⟩ := Prod.mk.inj (Option.some.inj h)
      obtain ⟨text, hpieces, rfl⟩ := ih hlater
      exact ⟨_, .cons (.escape hc) hpieces, rfl⟩
  | case5 => cases h
  | case6 c cs hquote _ _ _ hplain =>
      rename_i ih
      simp +zetaDelta only [Option.bind_eq_bind, Option.bind_eq_some_iff, Prod.exists] at h
      obtain ⟨later, left, hlater, h⟩ := h
      obtain ⟨rfl, rfl⟩ := Prod.mk.inj (Option.some.inj h)
      obtain ⟨text, hpieces, rfl⟩ := ih hlater
      simp only [Bool.or_eq_true, decide_eq_true_eq, not_or, Nat.not_lt] at hplain
      exact ⟨_, .cons (.plain hplain.1 hquote hplain.2) hpieces, rfl⟩

/-! ## Values -/

theorem Written.lead {x : Source} {blank text : List Char} (h : Written (.element x) text)
    (hblank : Blank blank) : Written (.element x) (blank ++ text) := by
  cases h with
  | element hbefore hvalue hafter =>
      rw [← List.append_assoc]
      exact .element (List.forall_mem_append.2 ⟨hblank, hbefore⟩) hvalue hafter

theorem Written.trail {x : Source} {blank text : List Char} (h : Written (.element x) text)
    (hblank : Blank blank) : Written (.element x) (text ++ blank) := by
  cases h with
  | element hbefore hvalue hafter =>
      rw [List.append_assoc, List.append_assoc]
      exact .element hbefore hvalue (List.forall_mem_append.2 ⟨hafter, hblank⟩)

/-- What is read in so many steps was written. -/
structure ReadsWritten (n : Nat) : Prop where
  value : ∀ {cs node rest}, readValue n cs = (node, some rest) →
    ∃ x text, Written (.element x) text ∧ cs = text ++ rest
  items : ∀ {first cs nodes rest}, readItems n first cs = (nodes, some rest) →
    (first = true ∧ ∃ blank, Blank blank ∧ cs = blank ++ ']' :: rest) ∨
      ∃ xs text, Written (.items xs) text ∧ cs = text ++ ']' :: rest
  members : ∀ {first cs entries rest}, readMembers n first cs = (entries, some rest) →
    (first = true ∧ ∃ blank, Blank blank ∧ cs = blank ++ '\x7d' :: rest) ∨
      ∃ ms text, Written (.members ms) text ∧ cs = text ++ '\x7d' :: rest

variable {n : Nat} {first : Bool} {node : Node} {cs rest : List Char}

theorem readsWritten_zero : ReadsWritten 0 where
  value h := by cases h
  items h := by cases h
  members h := by cases h

theorem ReadsWritten.exists_value (h : ReadsWritten n)
    (hread : readValue (n + 1) cs = (node, some rest)) :
    ∃ x text, Written (.element x) text ∧ cs = text ++ rest := by
  suffices hvalue : ∃ x text, Written (.value x) text ∧ skipBlanks cs = text ++ rest by
    obtain ⟨x, text, hwritten, htext⟩ := hvalue
    obtain ⟨blank, hblank, hcs⟩ := exists_blank cs
    exact ⟨x, blank ++ text, hwritten.alone.lead hblank, by rw [hcs, htext, List.append_assoc]⟩
  rw [readValue] at hread
  split at hread
  next heq =>
    cases hread
    exact ⟨.null, _, .null, heq⟩
  next heq =>
    cases hread
    exact ⟨.bool true, _, .bool true, heq⟩
  next heq =>
    cases hread
    exact ⟨.bool false, _, .bool false, heq⟩
  next cs heq =>
    rcases hscan : scanQuoted cs with _ | ⟨pieces, left⟩
    · rw [hscan] at hread
      cases hread
    · rw [hscan] at hread
      cases hread
      obtain ⟨text, hpieces, rfl⟩ := exists_pieces hscan
      exact ⟨_, _, .string hpieces, by simp [heq]⟩
  next cs heq =>
    rcases hitems : readItems n true cs with ⟨nodes, left⟩
    rw [hitems] at hread
    cases hread
    rcases h.items hitems with ⟨-, blank, hblank, rfl⟩ | ⟨xs, text, hxs, rfl⟩
    · exact ⟨_, _, .emptyList hblank, by simp [heq]⟩
    · exact ⟨_, _, .list hxs, by simp [heq]⟩
  next cs heq =>
    rcases hmembers : readMembers n true cs with ⟨entries, left⟩
    rw [hmembers] at hread
    cases hread
    rcases h.members hmembers with ⟨-, blank, hblank, rfl⟩ | ⟨ms, text, hms, rfl⟩
    · exact ⟨_, _, .emptyObject hblank, by simp [heq]⟩
    · exact ⟨_, _, .object hms, by simp [heq]⟩
  next =>
    rcases hscan : Numeral.scan (skipBlanks cs) with _ | ⟨numeral, left⟩
    · rw [hscan] at hread
      cases hread
    · rw [hscan] at hread
      cases hread
      obtain ⟨token, hspelt, htext⟩ := Numeral.spelt_of_scan hscan
      exact ⟨.number ⟨token, numeral, hspelt⟩, _, .number _, htext⟩

theorem ReadsWritten.exists_items {nodes : List Node} (h : ReadsWritten n)
    (hread : readItems (n + 1) first cs = (nodes, some rest)) :
    (first = true ∧ ∃ blank, Blank blank ∧ cs = blank ++ ']' :: rest) ∨
      ∃ xs text, Written (.items xs) text ∧ cs = text ++ ']' :: rest := by
  obtain ⟨blank, hblank, hcs⟩ := exists_blank cs
  rw [readItems] at hread
  split at hread
  next left heq =>
    cases first with
    | false => cases hread
    | true =>
        cases hread
        exact .inl ⟨rfl, blank, hblank, by rw [hcs, heq]⟩
  next =>
    rcases hvalue : readValue n (skipBlanks cs) with ⟨item, _ | left⟩
    · rw [hvalue] at hread
      cases hread
    · rw [hvalue] at hread
      obtain ⟨x, text, hx, htext⟩ := h.value hvalue
      obtain ⟨after, hafter, hleft⟩ := exists_blank left
      have helement : Written (.element x) (blank ++ (text ++ after)) :=
        (hx.trail hafter).lead hblank
      simp only at hread
      split at hread
      next later heq =>
        rcases hitems : readItems n false later with ⟨nodes', left'⟩
        rw [hitems] at hread
        cases hread
        rcases h.items hitems with ⟨hfirst, -⟩ | ⟨xs, others, hxs, rfl⟩
        · cases hfirst
        · refine .inr ⟨x :: xs, _, .item helement hxs, ?_⟩
          rw [hcs, htext, hleft, heq]
          simp
      next later heq =>
        cases hread
        refine .inr ⟨[x], _, .lastItem helement, ?_⟩
        rw [hcs, htext, hleft, heq]
        simp
      next => cases hread

theorem ReadsWritten.exists_members {entries : List (Option String × Node)} (h : ReadsWritten n)
    (hread : readMembers (n + 1) first cs = (entries, some rest)) :
    (first = true ∧ ∃ blank, Blank blank ∧ cs = blank ++ '\x7d' :: rest) ∨
      ∃ ms text, Written (.members ms) text ∧ cs = text ++ '\x7d' :: rest := by
  obtain ⟨before, hbefore, hcs⟩ := exists_blank cs
  rw [readMembers] at hread
  split at hread
  next left heq =>
    cases first with
    | false => cases hread
    | true =>
        cases hread
        exact .inl ⟨rfl, before, hbefore, by rw [hcs, heq]⟩
  next quoted hquote =>
    rcases hscan : scanQuoted quoted with _ | ⟨pieces, colon⟩
    · rw [hscan] at hread
      cases hread
    · rw [hscan] at hread
      obtain ⟨key, hkey, rfl⟩ := exists_pieces hscan
      obtain ⟨after, hafter, hcolon⟩ := exists_blank colon
      simp only at hread
      split at hread
      next behind heq =>
        rcases hvalue : readValue n behind with ⟨value, _ | left⟩
        · rw [hvalue] at hread
          cases hread
        · rw [hvalue] at hread
          obtain ⟨x, text, hx, rfl⟩ := h.value hvalue
          obtain ⟨blank, hblank, hleft⟩ := exists_blank left
          have helement : Written (.element x) (text ++ blank) := hx.trail hblank
          simp only at hread
          split at hread
          next later hcomma =>
            rcases hmembers : readMembers n false later with ⟨entries', left'⟩
            rw [hmembers] at hread
            cases hread
            rcases h.members hmembers with ⟨hfirst, -⟩ | ⟨ms, others, hms, rfl⟩
            · cases hfirst
            · refine .inr ⟨_, _, .member hbefore hkey hafter helement hms, ?_⟩
              rw [hcs, hquote, hcolon, heq, hleft, hcomma]
              simp
          next later hbrace =>
            cases hread
            refine .inr ⟨_, _, .lastMember hbefore hkey hafter helement, ?_⟩
            rw [hcs, hquote, hcolon, heq, hleft, hbrace]
            simp
          next => cases hread
      next => cases hread
  next => cases hread

theorem readsWritten (n : Nat) : ReadsWritten n := by
  induction n with
  | zero => exact readsWritten_zero
  | succ n ih => exact ⟨ih.exists_value, ih.exists_items, ih.exists_members⟩

/-- The texts that are read to their end are those of the grammar. -/
theorem complete_iff {text : String} :
    (document text).complete = true ↔ ∃ x, Written (.element x) text.toList := by
  constructor
  · intro h
    rw [document] at h
    rcases hread : readValue (2 * text.toList.length + 2) text.toList with ⟨root, _ | rest⟩
    · simp only [hread] at h
      cases h
    · simp only [hread, List.isEmpty_iff] at h
      obtain ⟨x, inner, hx, htext⟩ := (readsWritten _).value hread
      obtain ⟨blank, hblank, hrest⟩ := exists_blank rest
      refine ⟨x, ?_⟩
      rw [htext, hrest, h, List.append_nil]
      exact hx.trail hblank
  · rintro ⟨x, hx⟩
    rw [hx.document]

end Bindery.Json
