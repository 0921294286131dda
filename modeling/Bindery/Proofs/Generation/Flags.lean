import Bindery.Proofs.Generation.Units
import Bindery.Proofs.Json.Spelling
import Bindery.Proofs.Spec.Flags
import Bindery.Proofs.Validation.Flags

/-!
# Flag values from the text of a spec to the output

`flags_parse`: a number in the text of a spec is what the output has for the value of a flag, to the
character, if it is an integer of 64 bits. If not, nothing is written at all.
-/

namespace Bindery

open Json Validation

namespace Spec

/-- The value of a member is not complained about, and every unit with the enumerations has it. -/
structure KeepsFlag (s : Spec) (enumeration member literal : String) : Prop where
  accepted : ∀ rules, ∀ v ∈ s.validate rules, v.member? ≠ some (enumeration, member)
  assigned : ∀ (id : TargetId) (bridgeModule : Option String) (shelf : Shelf),
    s.validate (Target.ofId id).identifiers = [] →
      let run := TargetReport.generate (.ofId id) s bridgeModule Sink.memory shelf
      run.report.error = none ∧ ∃ e u, s.enumerations.get? enumeration = some e ∧
        run.state.get? id.enumerationUnit = some u ∧
        id.Assigns u enumeration e.memberNames member literal

/-- The value of a member is reported not to be an integer, and no target writes anything. -/
structure RefusesFlag (s : Spec) (enumeration member : String) : Prop where
  reported : ∀ rules, ∃ text, .flagNotInteger enumeration member text ∈ s.validate rules
  unwritten : ∀ (id : TargetId) (bridgeModule : Option String) {σ : Type} (sink : Sink σ)
    (state : σ),
      let run := TargetReport.generate (.ofId id) s bridgeModule sink state
      run.report.units = [] ∧ run.state = state

variable {s : Spec} {enumeration member literal : String} {values : OrderedMap (Option Number)}
  {number : Number} (hget : s.enumerations.get? enumeration = some ⟨true, .valued values⟩)
  (hvalue : values.get? member = some (some number))

include hget hvalue

/-- What validation says of the value of a member. -/
theorem mem_validate_iff_mem_ofFlagValue {rules : IdentifierRules} {v : Violation}
    (h : v.member? = some (enumeration, member)) :
    v ∈ s.validate rules ↔ v ∈ ofFlagValue enumeration member (some number) := by
  rw [mem_validate_iff h, hget]
  simp only [Option.some.injEq, exists_eq_left']
  rw [mem_ofMemberValues_valued_iff h, hvalue]
  simp only [Option.some.injEq, exists_eq_left']

theorem keepsFlag (hliteral : number.literal? = some literal) :
    s.KeepsFlag enumeration member literal where
  accepted rules v hv h := by
    rw [mem_validate_iff_mem_ofFlagValue hget hvalue h] at hv
    simp [ofFlagValue, hliteral] at hv
  assigned id bridgeModule shelf h := by
    have hsound := (s.validate_eq_nil_iff _).1 h
    obtain ⟨herror, u, hu, hlines⟩ :=
      TargetReport.enumerationUnit_lines id s bridgeModule shelf h
    refine ⟨herror, _, u, hget, hu, ?_⟩
    exact TargetId.assigns_of_infix hlines hsound.valuesFit hget hvalue hliteral

theorem refusesFlag (hliteral : number.literal? = none) : s.RefusesFlag enumeration member := by
  have hreported rules :
      .flagNotInteger enumeration member number.text ∈ s.validate rules := by
    rw [mem_validate_iff_mem_ofFlagValue hget hvalue rfl]
    simp [ofFlagValue, hliteral]
  refine ⟨fun rules => ⟨_, hreported rules⟩, fun id bridgeModule σ sink state => ?_⟩
  have hinvalid := List.ne_nil_of_mem (hreported (Target.ofId id).identifiers)
  obtain ⟨hreport, hstate⟩ :=
    TargetReport.generate_of_invalid hinvalid bridgeModule sink state
  exact ⟨congrArg TargetReport.units hreport, hstate⟩

omit hget hvalue

/-- A flag has the number of its text as its value, to the character, if the number is an integer
that a word of 64 bits holds. Any other number is reported, and the spec is not written. -/
theorem flags_parse {text : String} {s : Spec} (h : parse .json text = .ok s) :
    (∃ x, Written (.element x) text.toList) ∧
      ∀ x, Written (.element x) text.toList → x.Distinct →
        ∀ enumeration member token, x.GivesFlag enumeration member token →
          (token.IsWord → s.KeepsFlag enumeration member (String.ofList token.chars)) ∧
          (¬ token.IsWord → s.RefusesFlag enumeration member) := by
  obtain ⟨hwritten, hread⟩ := written_of_parse h
  refine ⟨hwritten, fun x hx hdistinct enumeration member token hgives => ?_⟩
  obtain ⟨values, number, hget, hvalue, hword, hother⟩ :=
    exists_valued_of_givesFlag hdistinct (hread x hx) hgives
  exact ⟨fun h => keepsFlag hget hvalue (hword h), fun h => refusesFlag hget hvalue (hother h)⟩

/-- A spec with one flag, and the text of that spec. -/
def flagSpec (value : Number) : Spec where
  enumerations := .ofList [("Access", ⟨true, .valued (.ofList [("all", some value)])⟩)]

def flagSource (token : Token) : Source :=
  .object [(some "enums", .object [(some "Access", .object [
    (some "isFlag", .bool true),
    (some "values", .object [(some "all", .number token)])])])]

def flagOpening : String :=
  "\x7b\"enums\":\x7b\"Access\":\x7b\"isFlag\":true,\"values\":\x7b\"all\":"

def flagText (token : String) : String :=
  flagOpening ++ token ++ "\x7d\x7d\x7d\x7d"

theorem written_flagSource (token : Token) :
    Written (.element (flagSource token)) (flagText (String.ofList token.chars)).toList := by
  have hall := (Written.number token).alone
  have hvalues := (Written.object (.lastNamed "all" hall)).alone
  have haccess := (Written.object (.named "isFlag" (Written.bool true).alone
    (.lastNamed "values" hvalues))).alone
  have henums := (Written.object (.lastNamed "Access" haccess)).alone
  have hroot := (Written.object (.lastNamed "enums" henums)).alone
  have hopening : flagOpening.toList = '\x7b' :: (quoted "enums".toList ++ ':' :: '\x7b' ::
      (quoted "Access".toList ++ ':' :: '\x7b' :: (quoted "isFlag".toList ++ ':' :: (word true ++
        ',' :: (quoted "values".toList ++ ':' :: '\x7b' :: (quoted "all".toList ++ [':'])))))) := by
    decide +kernel
  have hclosing : "\x7d\x7d\x7d\x7d".toList = ['\x7d', '\x7d', '\x7d', '\x7d'] := rfl
  rw [flagText, String.toList_append, String.toList_append, String.toList_ofList, hopening,
    hclosing]
  simpa [flagSource] using hroot

theorem parse_flagText {token : Token} {value : Number}
    (h : token.numeral.node = value.toJson.node) :
    parse .json (flagText (String.ofList token.chars)) = .ok (flagSpec value) := by
  have hread : read .json (flagSource token).node = .ok (flagSpec value) := by
    simp only [flagSource, Source.node, Source.memberNodes, h]
    cases value <;> cbv
  rw [parse, Format.document, (written_flagSource token).document, Document.read_eq_ok_iff]
  exact ⟨rfl, hread⟩

theorem givesFlag_flagSource (token : Token) : (flagSource token).GivesFlag "Access" "all" token :=
  .intro (.head _) (.head _) (.head _) (.tail _ (.head _)) (.head _)

/-- The greatest integer of 64 bits. -/
def greatest : Token where
  chars := integerText 18446744073709551615
  numeral := _
  spelt := Numeral.spelt_integerText _

/-- A one with a fraction. -/
def fractional : Token where
  chars := ['1', '.', '0']
  numeral := ⟨false, Numeral.digitValues ['1'], Numeral.digitValues ['0'], none⟩
  spelt := by
    have hwhole : IsWhole ['1'] :=
      ⟨⟨List.cons_ne_nil _ _, List.forall_mem_singleton.2 rfl⟩, nofun⟩
    have hfraction : IsDigits ['0'] := ⟨List.cons_ne_nil _ _, List.forall_mem_singleton.2 rfl⟩
    exact .intro hwhole (.digits hfraction) .absent

theorem distinct_flagSource (token : Token) : (flagSource token).Distinct := by
  simp [flagSource, Source.Distinct, Source.MembersDistinct, NamedOnce]

theorem flags_parse_flagText :
    let greatestSpec := flagSpec (.integer 18446744073709551615)
    let fractionalSpec := flagSpec (.real ⟨false, 4503599627370496, -52⟩)
    (parse .json (flagText "18446744073709551615") = .ok greatestSpec ∧
      (∀ id, greatestSpec.validate (Target.ofId id).identifiers = []) ∧
      greatestSpec.KeepsFlag "Access" "all" "18446744073709551615") ∧
    parse .json (flagText "1.0") = .ok fractionalSpec ∧
      fractionalSpec.RefusesFlag "Access" "all" := by
  intro greatestSpec fractionalSpec
  have hgreatest : String.ofList greatest.chars = "18446744073709551615" := by decide +kernel
  have hfractional : String.ofList fractional.chars = "1.0" := rfl
  have hfits : FitsWord 18446744073709551615 := by decide
  have hword : greatest.IsWord := Token.isWord_iff.2 ⟨_, hfits, rfl⟩
  have hother : ¬ fractional.IsWord := fun h => h.noFraction (by decide)
  have hgreatestNode :
      greatest.numeral.node = (Number.integer 18446744073709551615).toJson.node := by
    rw [Numeral.node, greatest.spelt.integer?_eq_some_iff.2 ⟨hfits, rfl⟩]
    rfl
  have hfractionalNode : fractional.numeral.node =
      (Number.real ⟨false, 4503599627370496, -52⟩).toJson.node := by
    have hdouble : fractional.numeral.double? = some ⟨false, 4503599627370496, -52⟩ := by
      decide +kernel
    rw [Numeral.node, hdouble]
    rfl
  have hparseGreatest := parse_flagText hgreatestNode
  have hparseFractional := parse_flagText hfractionalNode
  have hkeeps := ((flags_parse hparseGreatest).2 _ (written_flagSource greatest)
    (distinct_flagSource _) _ _ _ (givesFlag_flagSource _)).1 hword
  have hrefuses := ((flags_parse hparseFractional).2 _ (written_flagSource fractional)
    (distinct_flagSource _) _ _ _ (givesFlag_flagSource _)).2 hother
  rw [hgreatest] at hparseGreatest hkeeps
  rw [hfractional] at hparseFractional
  refine ⟨⟨hparseGreatest, fun id => ?_, hkeeps⟩, hparseFractional, hrefuses⟩
  cases id <;> decide +kernel

end Spec

end Bindery
