import Bindery.Proofs.Generation.Members
import Bindery.Proofs.Target.JavaScript
import Bindery.Proofs.Target.Literal

/-!
# The bridge

`classes_linked`: the bridge of a spec without violations binds every class once and nothing else.
`loads_iff`: the module is loaded under the name that was configured, unless TypeScript would have
to escape a character of it.
-/

namespace Bindery

namespace TargetId

/-! ## The lines of a bridge -/

/-- What a bridge has before its classes. -/
def bridgeHead : TargetId → String → List String
  | .typescript, _ => ["// " ++ generatedBanner, "import bindings from 'bindings';"]
  | .python, bridgeModule =>
    ["# " ++ generatedBanner, "from importlib import import_module", "",
      "_bridge = import_module(" ++ Python.stringLiteral bridgeModule ++ ")", ""]

/-- The line that binds the class of that identifier at run time. -/
def bindingLine : TargetId → String → String → String
  | .typescript, bridgeModule, x =>
    "export const \x7b " ++ x ++ " \x7d = bindings(\"" ++ bridgeModule ++ "\");"
  | .python, _, x => x ++ " = _bridge." ++ x

/-- What a bridge has behind its classes: Python lists the names that are handed on. -/
def bridgeTail : TargetId → List String → List String
  | .typescript, _ => []
  | .python, exported =>
    ["", "__all__ = [" ++ Text.joined ", " (exported.map Python.stringLiteral) ++ "]"]

theorem bridge_eq (id : TargetId) (s : Spec) (bridgeModule : String) :
    let exported := s.classes.keys.map entityIdentifier
    id.bridge s bridgeModule = id.bridgeHead bridgeModule ++
      exported.map (id.bindingLine bridgeModule) ++ id.bridgeTail exported := by
  cases id with
  | typescript =>
      simp only [bridge, TypeScript.bridge, bridgeHead, bridgeTail, List.map_map, List.append_nil]
      rfl
  | python =>
      simp only [bridge, Python.bridge, bridgeHead, bridgeTail, List.map_map]
      rfl

/-- The line that begins the declaration of a class. -/
def classHeading : TargetId → String → String
  | .typescript, x => "export class " ++ x ++ " \x7b"
  | .python, x => "class " ++ x ++ ":"

theorem exists_classBlock (id : TargetId) (name : String) (c : Class) (lines : List String) :
    ∃ rest, id.classBlock name c lines = id.classHeading (entityIdentifier name) :: rest := by
  cases id with
  | typescript => exact ⟨_, rfl⟩
  | python => exact ⟨_, rfl⟩

/-- The section of the classes has a block for each, which begins with its identifier. -/
theorem exists_classes (id : TargetId) (s : Spec) :
    ∃ blocks, id.body s .classes = List.flatten blocks ∧
      List.Forall₂ (fun x block => ∃ rest, block = id.classHeading x :: rest)
        (s.classes.keys.map entityIdentifier) blocks := by
  have hblocks : ∀ entry ∈ s.classes.entries, ∃ rest,
      id.entityLines s (.objectClass entry.1 entry.2) =
        id.classHeading (entityIdentifier entry.1) :: rest := by
    intro entry _
    rw [entityLines_objectClass]
    exact id.exists_classBlock entry.1 entry.2 _
  refine ⟨s.classes.entries.map fun entry => id.entityLines s (.objectClass entry.1 entry.2),
    ?_, ?_⟩
  · rw [body, Spec.entities, List.flatMap_map]
    exact List.flatMap_def
  · rw [OrderedMap.keys, List.map_map, List.forall₂_map_left_iff, List.forall₂_map_right_iff,
      List.forall₂_same]
    exact hblocks

end TargetId

namespace TargetReport

open TargetId

/-- The bridge of a spec without violations is a head, a line for each class, and in Python a list
of what these lines bind. What is bound are the classes of the declaration unit, in their order and
each once; no other name of the spec has the identifier of one. Where an identifier has no control
characters, its entry in the list stands for it. -/
theorem classes_linked (id : TargetId) (s : Spec) (bridgeModule : Option String) (shelf : Shelf)
    (h : s.validate (Target.ofId id).identifiers = []) :
    let run := generate (.ofId id) s bridgeModule Sink.memory shelf
    let loaded := bridgeModule.getD (Target.ofId id).bridgeModule
    ∃ exported : List String,
      exported = s.classes.keys.map entityIdentifier ∧
      exported.Nodup ∧
      (∃ u, run.state.get? id.bridgeUnit = some u ∧
        u.lines = id.bridgeHead loaded ++ exported.map (id.bindingLine loaded) ++
          id.bridgeTail exported) ∧
      (∀ x ∈ exported, Text.ControlFree x.toList →
        Python.evaluated? (Python.stringLiteral x) = some x) ∧
      (∀ name ∈ s.declaredNames, entityIdentifier name ∈ exported ↔ name ∈ s.classes.keys) ∧
      ∃ d body blocks, run.state.get? id.declarationUnit = some d ∧
        d.lines = id.layout (id.front s) body ∧ body .classes = List.flatten blocks ∧
        List.Forall₂ (fun x block => ∃ rest, block = id.classHeading x :: rest)
          exported blocks := by
  intro run loaded
  have hsound := (s.validate_eq_nil_iff _).1 h
  obtain ⟨hfits, -, hstate⟩ := generate_eq_ofSpec id s bridgeModule shelf h
  have hdeclared : ∀ name ∈ s.classes.keys, name ∈ s.declaredNames := by
    intro name hname
    obtain ⟨entry, hentry, rfl⟩ := List.mem_map.1 hname
    refine s.introducedNames_perm.mem_iff.1 ?_
    simp only [Spec.introducedNames, List.mem_append, List.mem_flatMap, List.mem_cons]
    exact .inl (.inr ⟨entry, hentry, .inl rfl⟩)
  have hother : id.bridgeUnit ≠ id.declarationUnit := by
    cases id <;> decide
  have hbridge : run.state.get? id.bridgeUnit =
      some (id.unit id.bridgeUnit (id.bridge s loaded)) := by
    rw [hstate, Emission.get?_ofSpec hfits]
    exact (if_neg hother).trans (if_pos rfl)
  obtain ⟨d, hd, hlines⟩ := declarationUnit_lines id s bridgeModule shelf h
  obtain ⟨blocks, hblocks, hheadings⟩ := id.exists_classes s
  refine ⟨_, rfl, ?_, ⟨_, hbridge, (id.lines_unit _ _).trans (id.bridge_eq s loaded)⟩, ?_, ?_,
    d, id.body s, blocks, hd, hlines.trans (id.lines_statements s), hblocks, hheadings⟩
  · exact List.Nodup.map_on
      (fun x hx y hy => hsound.entitiesApart (hdeclared x hx) (hdeclared y hy)) s.classes.nodup
  · exact fun x _ hx => Python.evaluated?_stringLiteral hx
  · intro name hname
    constructor
    · intro hmem
      obtain ⟨other, hclass, heq⟩ := List.mem_map.1 hmem
      rwa [← hsound.entitiesApart (hdeclared other hclass) hname heq]
    · exact fun hclass => List.mem_map_of_mem hclass

/-- Classes in scopes and with a second name, beside a record. -/
def linkedSpec : Spec where
  records := .ofList [("Point", {})]
  classes := .ofList [("ns::Session", { sharedName := some "SharedSession" }), ("Store", {})]

theorem classes_linked_linkedSpec :
    (∀ id, linkedSpec.validate (Target.ofId id).identifiers = []) ∧
    ∀ id : TargetId, ∃ u,
      (generate (.ofId id) linkedSpec (some "./native") Sink.memory ∅).state.get? id.bridgeUnit =
        some u ∧
      u.lines = id.bridgeHead "./native" ++
        [id.bindingLine "./native" "ns_Session", id.bindingLine "./native" "Store"] ++
        id.bridgeTail ["ns_Session", "Store"] := by
  have h : ∀ id, linkedSpec.validate (Target.ofId id).identifiers = [] := by
    intro id
    cases id <;> decide +kernel
  refine ⟨h, fun id => ?_⟩
  obtain ⟨exported, hexported, -, hunit, -⟩ :=
    classes_linked id linkedSpec (some "./native") ∅ (h id)
  have hnames : exported = ["ns_Session", "Store"] := by
    rw [hexported]
    decide +kernel
  rwa [hnames] at hunit

end TargetReport

/-! ## The name of the module -/

namespace TargetId

/-- Each line of a class in TypeScript, or the head of the bridge in Python, loads the module by a
literal that stands for its name. -/
def Loads : TargetId → List String → List String → String → Prop
  | .typescript, exported, lines, bridgeModule =>
    List.Forall₂ (fun x line => ∃ literal,
      line = "export const \x7b " ++ x ++ " \x7d = bindings(" ++ literal ++ ");" ∧
      JavaScript.literal? literal.toList = some (JavaScript.textUnits bridgeModule.toList, []))
      exported (lines.drop 2)
  | .python, _, lines, bridgeModule =>
    ∃ literal, lines[3]? = some ("_bridge = import_module(" ++ literal ++ ")") ∧
      Python.evaluated? literal = some bridgeModule

theorem toList_between_quotes (text : String) :
    ("\"" ++ text ++ "\"").toList = '"' :: (text.toList ++ ['"']) := by
  simp [String.toList_append]

/-- A line of a class has the name between double quotes, as it is. -/
theorem bindingLine_typescript (bridgeModule x : String) :
    typescript.bindingLine bridgeModule x =
      "export const \x7b " ++ x ++ " \x7d = bindings(" ++
        ("\"" ++ bridgeModule ++ "\"") ++ ");" := by
  have hline : "export const \x7b " ++ x ++ " \x7d = bindings(\"" ++ bridgeModule ++ "\");" =
      "export const \x7b " ++ x ++ " \x7d = bindings(" ++
        ("\"" ++ bridgeModule ++ "\"") ++ ");" := by
    apply String.toList_inj.1
    simp
  exact hline

theorem exists_literal_bindingLine_iff {p : String → Prop} (bridgeModule x : String) :
    (∃ literal, typescript.bindingLine bridgeModule x =
        "export const \x7b " ++ x ++ " \x7d = bindings(" ++ literal ++ ");" ∧ p literal) ↔
      p ("\"" ++ bridgeModule ++ "\"") := by
  rw [bindingLine_typescript]
  constructor
  · rintro ⟨literal, heq, hp⟩
    simp only [String.append_left_inj, String.append_right_inj] at heq
    rwa [heq]
  · exact fun hp => ⟨_, rfl, hp⟩

theorem loads_typescript_iff {bridgeModule : String} (h : Text.ControlFree bridgeModule.toList)
    {exported : List String} (hne : exported ≠ []) :
    typescript.Loads exported (typescript.bridgeHead bridgeModule ++
        exported.map (typescript.bindingLine bridgeModule) ++ typescript.bridgeTail exported)
        bridgeModule ↔
      '"' ∉ bridgeModule.toList ∧ '\\' ∉ bridgeModule.toList := by
  have hdrop : (typescript.bridgeHead bridgeModule ++
      exported.map (typescript.bindingLine bridgeModule) ++ typescript.bridgeTail exported).drop 2 =
        exported.map (typescript.bindingLine bridgeModule) :=
    List.append_nil _
  rw [Loads, hdrop, List.forall₂_map_right_iff, List.forall₂_same]
  simp only [exists_literal_bindingLine_iff, toList_between_quotes,
    JavaScript.literal?_between_quotes_iff h]
  obtain ⟨x, hx⟩ := List.exists_mem_of_ne_nil exported hne
  exact ⟨fun hall => hall x hx, fun hfree _ _ => hfree⟩

theorem loads_python {bridgeModule : String} (h : Text.ControlFree bridgeModule.toList)
    (exported : List String) :
    python.Loads exported (python.bridgeHead bridgeModule ++
      exported.map (python.bindingLine bridgeModule) ++ python.bridgeTail exported)
      bridgeModule :=
  ⟨_, rfl, Python.evaluated?_stringLiteral h⟩

end TargetId

namespace Emission

open TargetId TargetReport

/-- A spec that is written at all, and has a class, has a bridge that loads the configured module,
except that TypeScript does not escape the quotes and backslashes in its name. -/
theorem loads_iff (id : TargetId) (s : Spec) (bridgeModule : Option String) (shelf : Shelf)
    (h : (ofSpec (.ofId id) s bridgeModule Sink.memory shelf).1.abort = none)
    (hclasses : s.classes.isEmpty = false)
    (hmodule : Text.ControlFree (bridgeModule.getD (Target.ofId id).bridgeModule).toList) :
    let held := (ofSpec (.ofId id) s bridgeModule Sink.memory shelf).2
    let loaded := bridgeModule.getD (Target.ofId id).bridgeModule
    ∃ u, held.get? id.bridgeUnit = some u ∧
      (id.Loads (s.classes.keys.map entityIdentifier) u.lines loaded ↔
        (id = .typescript → '"' ∉ loaded.toList ∧ '\\' ∉ loaded.toList)) := by
  intro held loaded
  have hother : id.bridgeUnit ≠ id.declarationUnit := by
    cases id <;> decide
  have hbridge : held.get? id.bridgeUnit =
      some (id.unit id.bridgeUnit (id.bridge s loaded)) := by
    rw [get?_ofSpec (valuesFit_of_abort h)]
    exact (if_neg hother).trans (if_pos rfl)
  have hne : s.classes.keys.map entityIdentifier ≠ [] := by
    simpa [OrderedMap.isEmpty, OrderedMap.keys] using hclasses
  refine ⟨_, hbridge, ?_⟩
  rw [lines_unit, bridge_eq]
  cases id with
  | typescript =>
      exact (loads_typescript_iff hmodule hne).trans ⟨fun hfree _ => hfree, fun hfree => hfree rfl⟩
  | python => exact iff_of_true (loads_python hmodule _) fun h => absurd h (by decide)

/-- A path with backslashes and both kinds of quotes. -/
def addonPath : String := "C:\\addons\\it's \"new\".node"

theorem loads_iff_addonPath :
    (∀ id, (ofSpec (.ofId id) linkedSpec (some addonPath) Sink.memory ∅).1.abort = none) ∧
    linkedSpec.classes.isEmpty = false ∧ Text.ControlFree addonPath.toList ∧
    (∃ u, (ofSpec (.ofId .python) linkedSpec (some addonPath) Sink.memory ∅).2.get? "native.py" =
      some u ∧ python.Loads ["ns_Session", "Store"] u.lines addonPath) ∧
    ∃ u, (ofSpec (.ofId .typescript) linkedSpec none Sink.memory ∅).2.get? "native.js" = some u ∧
      typescript.Loads ["ns_Session", "Store"] u.lines "native.node" := by
  have habort : ∀ id, (ofSpec (.ofId id) linkedSpec (some addonPath) Sink.memory ∅).1.abort =
      none := by
    intro id
    cases id <;> decide +kernel
  have hclasses : linkedSpec.classes.isEmpty = false := by decide +kernel
  have hexported : linkedSpec.classes.keys.map entityIdentifier = ["ns_Session", "Store"] := by
    decide +kernel
  have hpath : Text.ControlFree addonPath.toList := by decide +kernel
  refine ⟨habort, hclasses, hpath, ?_, ?_⟩
  · obtain ⟨u, hu, hloads⟩ :=
      loads_iff .python linkedSpec (some addonPath) ∅ (habort .python) hclasses hpath
    rw [hexported] at hloads
    exact ⟨u, hu, hloads.2 nofun⟩
  · obtain ⟨u, hu, hloads⟩ :=
      loads_iff .typescript linkedSpec none ∅ (by decide +kernel) hclasses (by decide +kernel)
    rw [hexported] at hloads
    exact ⟨u, hu, hloads.2 fun _ => by decide +kernel⟩

/-- A backslash in the name of the module is taken for an escape: one is lost, and one makes a line
break. -/
theorem not_loads_backslash :
    Text.ControlFree "C:\\addons\\new.node".toList ∧
    (∃ u, (ofSpec (.ofId .typescript) linkedSpec (some "C:\\addons\\new.node") Sink.memory ∅).2.get?
        "native.js" = some u ∧
      u.lines[3]? = some ("export const \x7b Store \x7d = bindings(" ++
        "\"C:\\addons\\new.node\"" ++ ");") ∧
      ¬ typescript.Loads ["ns_Session", "Store"] u.lines "C:\\addons\\new.node") ∧
    JavaScript.literal? "\"C:\\addons\\new.node\"".toList =
      some (JavaScript.textUnits "C:addons\new.node".toList, []) := by
  have hpath : Text.ControlFree "C:\\addons\\new.node".toList := by decide +kernel
  have hunit : (ofSpec (.ofId .typescript) linkedSpec (some "C:\\addons\\new.node") Sink.memory
      ∅).2.get? "native.js" = some (typescript.unit "native.js"
        (typescript.bridge linkedSpec "C:\\addons\\new.node")) := by
    decide +kernel
  refine ⟨hpath, ⟨_, hunit, by decide +kernel, ?_⟩, by decide +kernel⟩
  have hexported : linkedSpec.classes.keys.map entityIdentifier = ["ns_Session", "Store"] := by
    decide +kernel
  rw [lines_unit, bridge_eq, hexported, loads_typescript_iff hpath (by simp)]
  decide +kernel

end Emission

end Bindery
