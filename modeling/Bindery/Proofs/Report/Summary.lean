import Bindery.Proofs.SortedMap
import Bindery.Proofs.Text.Lines
import Bindery.Report.Basic

/-!
# Summaries of placeholders

`placeholders_accounted`: a summary has every identifier with the number of its issues, and the
report for people prints these numbers below their sum, unless the target was given up.
-/

namespace Bindery

open Text

namespace TargetReport

/-! ## Counts -/

/-- Every name once, in ascending order, each with how often it stands in a list. -/
structure Tallies (names : List String) (rows : List (String × Nat)) : Prop where
  ascending : (rows.map Prod.fst).Pairwise (· < ·)
  counted : ∀ name n, (name, n) ∈ rows ↔ name ∈ names ∧ n = names.count name
  total : (rows.map Prod.snd).sum = names.length

/-- What the issues are about, one after the other. -/
def identifiers (t : TargetReport) : List String :=
  t.issues.map Issue.identifier

theorem placeholderSummary_eq (t : TargetReport) :
    t.placeholderSummary = t.identifiers.foldl SortedMap.count ∅ := by
  rw [identifiers, List.foldl_map]
  rfl

/-- The summary counts every issue once. -/
theorem sum_placeholderSummary (t : TargetReport) :
    (t.placeholderSummary.entries.map Prod.snd).sum = t.issues.length := by
  rw [placeholderSummary_eq, SortedMap.sum_foldl_count, identifiers, List.length_map]
  exact Nat.zero_add _

theorem tallies_placeholderSummary (t : TargetReport) :
    Tallies t.identifiers t.placeholderSummary.entries where
  ascending := List.pairwise_map.2 t.placeholderSummary.sorted
  counted := by
    intro name n
    have hempty : (∅ : SortedMap Nat).get? name = none := rfl
    rw [← SortedMap.get?_eq_some_iff, placeholderSummary_eq, SortedMap.get?_foldl_count, hempty]
    by_cases hname : name ∈ t.identifiers
    · simp [hname, eq_comm]
    · simp [hname]
  total := by rw [sum_placeholderSummary, identifiers, List.length_map]

/-! ## Lines about placeholders -/

def placeholderHeader (n : Nat) : String := s!"  placeholders ({n}):"

def placeholderRow (row : String × Nat) : String := s!"    {row.1} x{row.2}"

/-- A line that reports a sum of placeholders, or those of one identifier. -/
def IsPlaceholderLine (line : String) : Prop :=
  (∃ n, line = placeholderHeader n) ∨ ∃ row, line = placeholderRow row

/-- What a report prints of a target. The numbers of placeholders stand below their sum, on a line
for each identifier, and on no others. -/
inductive Printed (t : TargetReport) : List String → Prop where
  | aborted {error : String} : t.error = some error →
      Printed t [s!"{t.target.name}: aborted: {error}"]
  | resolved {lines : List String} : t.error = none → t.issues = [] →
      (∀ line ∈ lines, ¬ IsPlaceholderLine line) → Printed t lines
  | unresolved {before behind : List String} {rows : List (String × Nat)} :
      t.error = none → t.issues ≠ [] → Tallies t.identifiers rows →
      (∀ line ∈ before ++ behind, ¬ IsPlaceholderLine line) →
      Printed t (before ++ placeholderHeader (rows.map Prod.snd).sum ::
        rows.map placeholderRow ++ behind)

/-- Nothing that a report prints of a target has a line feed in it. -/
structure FeedFree (t : TargetReport) : Prop where
  units : ∀ u ∈ t.units, OneLine u.name ∧ ∀ path ∈ u.path, OneLine path
  coverage : ∀ w ∈ t.coverage, OneLine w.text
  identifiers : ∀ name ∈ t.identifiers, OneLine name
  error : ∀ error ∈ t.error, OneLine error

/-! The equations of the two lines are stated for their characters: that is how lines are told from
each other. -/

theorem toList_placeholderHeader (n : Nat) : (placeholderHeader n).toList =
    "  placeholders (".toList ++ (Nat.toDigits 10 n ++ "):".toList) := by
  change ("  placeholders (" ++ n.repr ++ "):").toList = _
  rw [String.toList_append, String.toList_append, Nat.toList_repr, List.append_assoc]

theorem toList_placeholderRow (row : String × Nat) : (placeholderRow row).toList =
    "    ".toList ++ ((row.1.toList ++ " x".toList) ++ Nat.toDigits 10 row.2) := by
  change ("    " ++ row.1 ++ " x" ++ row.2.repr).toList = _
  simp only [String.toList_append, Nat.toList_repr, List.append_assoc]

theorem IsPlaceholderLine.begins {line : String} (h : IsPlaceholderLine line) :
    line.toList.take 4 = "  pl".toList ∨ line.toList.take 4 = "    ".toList := by
  rcases h with ⟨n, rfl⟩ | ⟨row, rfl⟩
  · rw [toList_placeholderHeader, List.take_append_of_le_length (by decide +kernel)]
    exact .inl (by decide +kernel)
  · rw [toList_placeholderRow, List.take_append_of_le_length (by decide +kernel)]
    exact .inr (by decide +kernel)

/-- The sum ends in a colon, and the others end in a digit. -/
theorem IsPlaceholderLine.ends {line : String} (h : IsPlaceholderLine line) :
    line.toList.getLast? ≠ some ')' := by
  rcases h with ⟨n, rfl⟩ | ⟨row, rfl⟩
  · have hcolon : "):".toList.getLast? = some ':' := by decide
    rw [toList_placeholderHeader, List.getLast?_append, List.getLast?_append, hcolon,
      Option.some_or, Option.some_or]
    decide
  · rw [toList_placeholderRow, List.getLast?_append, List.getLast?_append,
      List.getLast?_eq_some_getLast Nat.toDigits_ne_nil, Option.some_or, Option.some_or]
    intro hlast
    have hdigit : (')' : Char).isDigit = true := by
      rw [← Option.some.inj hlast]
      exact Nat.isDigit_of_mem_toDigits (by decide) (by decide) (List.getLast_mem _)
    cases hdigit

theorem not_isPlaceholderLine (front rest : String)
    (h : 4 ≤ front.toList.length ∧ front.toList.take 4 ∉ ["  pl".toList, "    ".toList]) :
    ¬ IsPlaceholderLine (front ++ rest) := by
  intro hline
  have hbegins := hline.begins
  rw [String.toList_append, List.take_append_of_le_length h.1] at hbegins
  exact h.2 (by simpa using hbegins)

/-! ## The other lines -/

/-- Lines that report no placeholders, each with its line feed, and with no other one on that
condition. -/
def Plain (feedFree : Prop) (texts : List String) : Prop :=
  ∃ lines : List String, texts = lines.map (· ++ "\n") ∧
    (∀ line ∈ lines, ¬ IsPlaceholderLine line) ∧ (feedFree → ∀ line ∈ lines, OneLine line)

section

variable {feedFree : Prop}

theorem plain_nil : Plain feedFree [] := ⟨[], rfl, nofun, fun _ => nofun⟩

theorem plain_singleton (front line : String) {last : String} (hlast : last = line ++ "\n")
    (hother : ¬ IsPlaceholderLine (front ++ line))
    (hfront : feedFree → OneLine front) (hline : OneLine line) : Plain feedFree [front ++ last] :=
  ⟨[front ++ line], by simp [hlast, String.append_assoc], by simpa using hother,
    fun h => by simpa using ⟨hfront h, hline⟩⟩

theorem Plain.append {texts texts' : List String} (h : Plain feedFree texts)
    (h' : Plain feedFree texts') : Plain feedFree (texts ++ texts') := by
  obtain ⟨lines, rfl, hother, hone⟩ := h
  obtain ⟨lines', rfl, hother', hone'⟩ := h'
  exact ⟨lines ++ lines', by simp, List.forall_mem_append.2 ⟨hother, hother'⟩,
    fun h => List.forall_mem_append.2 ⟨hone h, hone' h⟩⟩

theorem plain_map {α : Type} {f : α → String} {as : List α}
    (h : ∀ a ∈ as, Plain feedFree [f a]) : Plain feedFree (as.map f) := by
  induction as with
  | nil => exact plain_nil
  | cons a as ih =>
      obtain ⟨ha, has⟩ := List.forall_mem_cons.1 h
      exact ha.append (ih has)

theorem plain_heading (t : TargetReport) :
    Plain feedFree [s!"{t.target.name}: {t.units.length} unit(s)\n"] := by
  have hname : OneLine t.target.name ∧ ∀ rest, ¬ IsPlaceholderLine (t.target.name ++ rest) := by
    cases t.target with
    | typescript => exact ⟨by decide, (not_isPlaceholderLine "typescript" · (by decide +kernel))⟩
    | python => exact ⟨by decide, (not_isPlaceholderLine "python" · (by decide +kernel))⟩
  refine plain_singleton (t.target.name ++ ": " ++ t.units.length.repr) " unit(s)" rfl ?_ ?_
    (by decide)
  · simp only [String.append_assoc]
    exact hname.2 _
  · exact fun _ => .between hname.1 (by decide) (oneLine_repr _)

theorem plain_unitLine (u : UnitSummary)
    (h : feedFree → OneLine u.name ∧ ∀ path ∈ u.path, OneLine path) :
    Plain feedFree [unitLine u] := by
  rw [unitLine]
  split
  next path hpath =>
    refine plain_singleton ("  wrote " ++ path) "" rfl ?_ ?_ (by decide)
    · rw [String.append_assoc]
      exact not_isPlaceholderLine "  wrote " _ (by decide +kernel)
    · exact fun hfree => oneLine_append.2 ⟨by decide, (h hfree).2 path hpath⟩
  next =>
    -- The name of a unit may begin like a row, but no row ends in a bracket.
    have hbracket : " lines)".toList.getLast? = some ')' := by decide
    refine plain_singleton ("  " ++ u.name ++ " (" ++ u.lines.repr) " lines)" rfl
      (fun hline => hline.ends ?_) ?_ (by decide)
    · rw [String.toList_append, List.getLast?_append, hbracket, Option.some_or]
    · intro hfree
      have hname : OneLine ("  " ++ u.name) := oneLine_append.2 ⟨by decide, (h hfree).1⟩
      exact .between hname (by decide) (oneLine_repr _)

theorem plain_warning (w : CoverageWarning) (h : feedFree → OneLine w.text) :
    Plain feedFree [s!"  warning: {w.text}\n"] := by
  refine plain_singleton ("  warning: " ++ w.text) "" rfl ?_ ?_ (by decide)
  · rw [String.append_assoc]
    exact not_isPlaceholderLine "  warning: " _ (by decide +kernel)
  · exact fun hfree => oneLine_append.2 ⟨by decide, h hfree⟩

theorem plain_failedSteps (t : TargetReport) :
    Plain feedFree (if t.failedSteps.isEmpty then []
      else [s!"  post-processing failed: {t.failedSteps.length} step(s)\n"]) := by
  split
  · exact plain_nil
  · refine plain_singleton ("  post-processing failed: " ++ t.failedSteps.length.repr) " step(s)"
      rfl ?_ ?_ (by decide)
    · rw [String.append_assoc]
      exact not_isPlaceholderLine "  post-processing failed: " _ (by decide +kernel)
    · exact fun _ => oneLine_append.2 ⟨by decide +kernel, oneLine_repr _⟩

end

/-! ## The lines of a target -/

theorem summaryLines_eq {t : TargetReport} (h : t.issues ≠ []) :
    t.summaryLines = (placeholderHeader (t.placeholderSummary.entries.map Prod.snd).sum ::
      t.placeholderSummary.entries.map placeholderRow).map (· ++ "\n") := by
  have hheader (n : Nat) : s!"  placeholders ({n}):\n" = placeholderHeader n ++ "\n" := by
    change "  placeholders (" ++ n.repr ++ ("):" ++ "\n") = _
    exact String.append_assoc.symm
  rw [summaryLines, if_neg (by simpa using h), sum_placeholderSummary, hheader, List.map_cons,
    List.map_map]
  rfl

theorem oneLine_placeholderHeader (n : Nat) : OneLine (placeholderHeader n) := by
  change OneLine ("  placeholders (" ++ n.repr ++ "):")
  exact .between (by decide +kernel) (oneLine_repr n) (by decide)

theorem oneLine_placeholderRow {row : String × Nat} (h : OneLine row.1) :
    OneLine (placeholderRow row) := by
  change OneLine ("    " ++ row.1 ++ " x" ++ row.2.repr)
  exact .between (oneLine_append.2 ⟨by decide, h⟩) (by decide) (oneLine_repr row.2)

theorem exists_printed (t : TargetReport) : ∃ lines, Printed t lines ∧
    t.textLines = lines.map (· ++ "\n") ∧ (t.FeedFree → ∀ line ∈ lines, OneLine line) := by
  rw [textLines]
  split
  next error herror =>
    have hname : OneLine t.target.name := by cases t.target <;> decide
    refine ⟨_, .aborted herror, rfl, fun h => List.forall_mem_singleton.2 ?_⟩
    exact .between hname (by decide) (h.error error herror)
  next herror =>
    obtain ⟨before, hbefore, hother, hone⟩ := ((plain_heading t).append
      (plain_map fun u hu => plain_unitLine u fun h : t.FeedFree => h.units u hu)).append
      (plain_map fun w hw => plain_warning w fun h => h.coverage w hw)
    obtain ⟨behind, hbehind, hother', hone'⟩ : Plain t.FeedFree _ := plain_failedSteps t
    have hothers : ∀ line ∈ before ++ behind, ¬ IsPlaceholderLine line :=
      List.forall_mem_append.2 ⟨hother, hother'⟩
    rw [hbefore, hbehind]
    by_cases hissues : t.issues = []
    · refine ⟨before ++ behind, .resolved herror hissues hothers, ?_, fun h => ?_⟩
      · simp [summaryLines, hissues]
      · exact List.forall_mem_append.2 ⟨hone h, hone' h⟩
    · have htallies := tallies_placeholderSummary t
      refine ⟨_, .unresolved herror hissues htallies hothers, ?_, fun h => ?_⟩
      · rw [summaryLines_eq hissues]
        simp
      · have hrows : ∀ line ∈ t.placeholderSummary.entries.map placeholderRow, OneLine line := by
          refine List.forall_mem_map.2 fun row hrow => oneLine_placeholderRow ?_
          exact h.identifiers row.1 ((htallies.counted row.1 row.2).1 hrow).1
        refine List.forall_mem_append.2 ⟨List.forall_mem_append.2 ⟨hone h, ?_⟩, hone' h⟩
        exact List.forall_mem_cons.2 ⟨oneLine_placeholderHeader _, hrows⟩

end TargetReport

namespace Report

open TargetReport

/-- The text of a report is what is printed of its targets, one after the other. -/
theorem exists_lines (targets : List TargetReport) : ∃ chunks,
    List.Forall₂ (fun t lines => Printed t lines ∧ t.textLines = lines.map (· ++ "\n")) targets
      chunks ∧
    text ⟨targets⟩ = String.join (chunks.flatten.map (· ++ "\n")) ∧
    ((∀ t ∈ targets, t.FeedFree) → ∀ line ∈ chunks.flatten, OneLine line) := by
  induction targets with
  | nil => exact ⟨[], .nil, rfl, fun _ => nofun⟩
  | cons t targets ih =>
      obtain ⟨lines, hprinted, hlines, hone⟩ := t.exists_printed
      obtain ⟨chunks, hchunks, htext, hones⟩ := ih
      refine ⟨lines :: chunks, .cons ⟨hprinted, hlines⟩ hchunks, ?_, fun h => ?_⟩
      · rw [text] at htext ⊢
        rw [List.flatMap_cons, hlines, List.flatten_cons, List.map_append, String.join_append,
          htext, String.join_append]
      · obtain ⟨ht, htargets⟩ := List.forall_mem_cons.1 h
        exact List.forall_mem_append.2 ⟨hone ht, hones htargets⟩

/-- A summary has every identifier of an issue once, in ascending order, with the number of its
issues, and these add up to all issues. Of a target that was given up the text has a single line. Of
another one it has the numbers of the summary below their sum, and neither numbers nor sums
elsewhere. These are the lines of the text as it is cut at the line feeds, unless it prints one of
its own. The count of a report is that of all issues. -/
theorem placeholders_accounted (r : Report) :
    (∀ t ∈ r.targets, Tallies t.identifiers t.placeholderSummary.entries) ∧
    (∃ chunks, List.Forall₂
        (fun t lines => Printed t lines ∧ t.textLines = lines.map (· ++ "\n")) r.targets chunks ∧
      r.text = String.join (chunks.flatten.map (· ++ "\n")) ∧
      ((∀ t ∈ r.targets, t.FeedFree) → Text.pieces "\n" r.text = chunks.flatten ++ [""])) ∧
    r.placeholderCount = (r.targets.map fun t => t.issues.length).sum := by
  refine ⟨fun t _ => t.tallies_placeholderSummary, ?_, List.length_flatMap⟩
  obtain ⟨chunks, hchunks, htext, hone⟩ := exists_lines r.targets
  exact ⟨chunks, hchunks, htext, fun h => htext ▸ Text.pieces_lines (hone h)⟩

/-- A target with an identifier that has two issues, and one that was given up. -/
def gappyReport : Report where
  targets := [
    { target := .typescript
      units := [{ name := "native.d.ts", lines := 3 }]
      coverage := [.template "std::map"]
      issues := [
        ⟨.unmappableTemplate, "std::map", "Store.table", none⟩,
        ⟨.unmappablePrimitive, "long double", "Store.size", none⟩,
        ⟨.unmappableTemplate, "std::map", "Store.find", some "expected 1 argument(s), found 2"⟩] },
    { target := .python, error := some "lost", violations := ["lost"] }]

theorem placeholders_accounted_gappyReport :
    (∀ t ∈ gappyReport.targets, t.FeedFree) ∧
    gappyReport.text = "typescript: 1 unit(s)\n" ++
      "  native.d.ts (3 lines)\n" ++
      "  warning: spec declares an unsupported template instance: \"std::map\"\n" ++
      "  placeholders (3):\n" ++
      "    long double x1\n" ++
      "    std::map x2\n" ++
      "python: aborted: lost\n" ∧
    (∃ chunks, List.Forall₂
        (fun t lines => Printed t lines ∧ t.textLines = lines.map (· ++ "\n")) gappyReport.targets
          chunks ∧
      Text.pieces "\n" gappyReport.text = chunks.flatten ++ [""]) ∧
    gappyReport.placeholderCount = 3 := by
  have hfree : ∀ t ∈ gappyReport.targets, t.FeedFree := by
    refine List.forall_mem_cons.2 ⟨?_, List.forall_mem_singleton.2 ?_⟩
    · exact ⟨by decide +kernel, by decide +kernel, by decide +kernel, by decide +kernel⟩
    · exact ⟨by decide +kernel, by decide +kernel, by decide +kernel, by decide +kernel⟩
  obtain ⟨-, ⟨chunks, hchunks, -, hpieces⟩, hcount⟩ := placeholders_accounted gappyReport
  exact ⟨hfree, by decide +kernel, ⟨chunks, hchunks, hpieces hfree⟩, hcount.trans (by decide)⟩

end Report

end Bindery
