import Bindery.Proofs.Json.Acceptance
import Bindery.Proofs.Json.Members
import Bindery.Spec.File

/-!
# The values of flags in the text of a spec

`exists_valued_of_givesFlag`: a number that a text gives to a member of a flag enumeration is its
value in the spec, and the number has a literal exactly if it is an integer of 64 bits: its own
text.
-/

namespace Bindery

open Json

/-- The text gives a member of a flag enumeration that number. -/
inductive Json.Source.GivesFlag (x : Source) (enumeration member : String) (token : Token) :
    Prop where
  | intro {enums e values} : (some "enums", enums) ∈ x.given Spec.schema →
      (some enumeration, e) ∈ enums.members →
      (some "isFlag", .bool true) ∈ e.given Enumeration.schema →
      (some "values", values) ∈ e.given Enumeration.schema →
      (some member, .number token) ∈ values.members → GivesFlag x enumeration member token

/-! ## Fields -/

theorem Reading.get?_map {α : Type} {read : Reading → Node → Except Fault α} {r : Reading}
    {node : Node} {m : OrderedMap α} (h : Reading.map read r node = .ok m) (key : String) :
    Says (fun node value => ∃ a, read r.enter node = .ok a ∧ value = some a) (node.get? key) none
      (m.get? key) := by
  cases node with
  | table nodes => exact get?_entries h key
  | _ => cases h

theorem Spec.stores_enumerations :
    Schema.Stores schema.fields "enums" enumerations
      fun r node es => Reading.map (Enumeration.schema.read default) r node = .ok es := by
  refine .other (by decide) (fun _ _ => rfl) (.other (by decide) (fun _ _ => rfl) ?_)
  refine .other (by decide) (fun _ _ => rfl) (.other (by decide) (fun _ _ => rfl) ?_)
  refine .other (by decide) (fun _ _ => rfl) (.this (fun _ _ _ _ h => h) ?_)
  exact .other (by decide) (fun _ _ => rfl) (.other (by decide) (fun _ _ => rfl) .nil)

theorem Enumeration.stores_isFlag :
    Schema.Stores schema.fields "isFlag" isFlag fun _ => Node.IsFlag :=
  .this (fun _ _ _ _ => Reading.bool_ok) (.other (by decide) (fun _ _ => rfl) .nil)

theorem Enumeration.stores_members :
    Schema.Stores schema.fields "values" members
      fun r node ms => Members.read r node = .ok ms :=
  .other (by decide) (fun _ _ => rfl) (.this (fun _ _ _ _ h => h) .nil)

/-! ## The value of a member -/

/-- Members that are given by a table have values. -/
theorem Members.valued_of_table {r : Reading} {entries : List (Option String × Node)} {ms : Members}
    (h : Members.read r (.table entries) = .ok ms) :
    ∃ values, Reading.map (Reading.option readNumber) r.afterHold (.table entries) = .ok values ∧
      ms = .valued values := by
  cases hhold : r.hold (.table entries) with
  | error fault => simp [Members.read, hhold, bind, Except.bind] at h
  | ok =>
      cases hvalues : Reading.map (Reading.option readNumber) r.afterHold (.table entries) with
      | error fault =>
          simp [Members.read, hhold, hvalues, Reading.list, throw, throwThe,
            MonadExceptOf.throw] at h
      | ok values =>
          refine ⟨values, rfl, ?_⟩
          simpa [Members.read, hhold, hvalues, Reading.list, throw, throwThe, MonadExceptOf.throw,
            eq_comm] using h

theorem Json.Token.literal?_of_readNumber {t : Token} {r : Reading} {value : Option Number}
    (h : Reading.option Members.readNumber r t.numeral.node = .ok value) :
    ∃ number, value = some number ∧
      (t.IsWord → number.literal? = some (String.ofList t.chars)) ∧
      (¬ t.IsWord → number.literal? = none) := by
  by_cases hword : t.IsWord
  · obtain ⟨i, hnode, htext⟩ := exists_integer_of_isWord hword
    rw [hnode] at h
    refine ⟨.integer i, (Except.ok.inj h).symm, fun _ => ?_, fun hnot => absurd hword hnot⟩
    rw [Number.literal?, ← htext, integerText, String.ofList_toList]
  · have hne := node_ne_integer hword
    rw [Numeral.node] at h hne
    split at h
    next i heq =>
      rw [heq] at hne
      exact absurd rfl (hne i)
    next =>
      split at h
      next d _ =>
        exact ⟨.real d, (Except.ok.inj h).symm, fun hnot => absurd hnot hword, fun _ => rfl⟩
      next => cases h

theorem Spec.exists_valued_of_givesFlag {x : Source} {r : Reading} {s : Spec}
    {enumeration member : String} {token : Token} (hdistinct : x.Distinct)
    (hread : Spec.read r x.node = .ok s) (h : x.GivesFlag enumeration member token) :
    ∃ values number, s.enumerations.get? enumeration = some ⟨true, .valued values⟩ ∧
      values.get? member = some (some number) ∧
      (token.IsWord → number.literal? = some (String.ofList token.chars)) ∧
      (¬ token.IsWord → number.literal? = none) := by
  obtain @⟨enums, e, values, henums, he, hisFlag, hvalues, hmember⟩ := h
  have hdistinctEnums := hdistinct.given henums
  have hdistinctE := hdistinctEnums.member he
  have hdistinctValues := hdistinctE.given hvalues
  have henumerations := Schema.says_read stores_enumerations (by decide) (by decide) hread
  rw [Source.node_given? hdistinct (by decide) henums] at henumerations
  have hentry := Reading.get?_map henumerations enumeration
  rw [Source.node_get? hdistinctEnums he] at hentry
  obtain ⟨⟨isFlag, members⟩, hreadE, hget⟩ := hentry
  have hflag := Schema.says_read Enumeration.stores_isFlag (by decide) (by decide) hreadE
  rw [Source.node_given? hdistinctE (by decide) hisFlag] at hflag
  obtain rfl : true = isFlag := Node.bool.inj hflag
  have hmembers := Schema.says_read Enumeration.stores_members (by decide) (by decide) hreadE
  rw [Source.node_given? hdistinctE (by decide) hvalues] at hmembers
  have htable : ∃ entries, values.node = .table entries := by
    cases values with
    | object members => exact ⟨_, rfl⟩
    | _ => cases hmember
  obtain ⟨entries, hnode⟩ := htable
  have hmembers : Members.read _ values.node = .ok members := hmembers
  rw [hnode] at hmembers
  obtain ⟨m, hm, rfl⟩ := Members.valued_of_table hmembers
  rw [← hnode] at hm
  have hvalue := Reading.get?_map hm member
  rw [Source.node_get? hdistinctValues hmember] at hvalue
  obtain ⟨value, hreadValue, hgetValue⟩ := hvalue
  obtain ⟨number, rfl, hliteral, hnone⟩ := Token.literal?_of_readNumber hreadValue
  exact ⟨m, number, hget, hgetValue, hliteral, hnone⟩

/-! ## Texts of specs -/

/-- The text of a spec is in the grammar, and the spec is read from what is written there. -/
theorem Spec.written_of_parse {text : String} {s : Spec} (h : parse .json text = .ok s) :
    (∃ x, Written (.element x) text.toList) ∧
      ∀ x, Written (.element x) text.toList → read .json x.node = .ok s := by
  obtain ⟨hcomplete, hread⟩ := Document.read_eq_ok_iff.1 h
  refine ⟨complete_iff.1 hcomplete, fun x hx => ?_⟩
  rw [Format.document, hx.document] at hread
  exact hread

end Bindery
