import Bindery.Config
import Bindery.Proofs.Document.Schema
import Bindery.Proofs.Files.Operations
import Bindery.Proofs.SortedMap

/-!
# Configurations laid over each other

`overlaid_loadLayers`: of two configurations the one of the project counts, as far as it sets
anything, but it can neither ask for post-processing that the user's configuration has ruled out,
nor name no targets where that names some.
-/

namespace Bindery

open Schema

/-- The command that a node stands for. -/
def Node.IsCommand (node : Node) (value : Option StepCommand) : Prop :=
  ∃ command, Config.commandSchema.read default .toml node = .ok command ∧ value = some command

namespace Config

/-! ## What a document sets -/

/-- What a configuration sets a key of its general settings to. A null, which no text has, would set
nothing. -/
def setting? (text key : String) : Option Node :=
  ((schema.given? "generate" (Toml.document text).root).bind (settingsSchema.given? key)).filter
    fun node => !node.isNull

/-- What a configuration says of the command of a step. -/
def stepNode? (text step : String) : Option Node :=
  (schema.given? "post_process" (Toml.document text).root).bind (Node.get? · step)

variable {text : String} {c : Config}

theorem read_of_parse (h : parse text = .ok c) :
    schema.read default .toml (Toml.document text).root = .ok c := by
  have hformat : (Toml.document text).format = .toml := by
    rw [Toml.document]
    split <;> rfl
  have hread := (Document.read_eq_ok_iff.1 h).2
  rwa [hformat, if_neg (by decide)] at hread

/-- A general setting is what the document sets its key to. -/
theorem says_setting {α : Type} {key : String} {get : Config → α} {stands : Node → α → Prop}
    (hstores : Stores settingsSchema.fields key get fun _ => stands)
    (hkey : key ∈ settingsSchema.fields.map Field.name)
    (hget : ∀ (x : Config) commands, get { x with commands } = get x) (h : parse text = .ok c) :
    Says stands ((schema.given? "generate" (Toml.document text).root).bind
      (settingsSchema.given? key)) (get default) (get c) := by
  have houter : Stores schema.fields "generate" get fun r node value =>
      ∃ settings, settingsSchema.read default r node = .ok settings ∧ get settings = value := by
    refine .this (fun _ _ x settings hok => ⟨settings, hok, ?_⟩) (.other (by decide) hget .nil)
    exact (hget settings x.commands).symm
  have hsays := says_read houter (by decide) (by decide) (read_of_parse h)
  cases hnode : schema.given? "generate" (Toml.document text).root with
  | none =>
      rw [hnode] at hsays
      exact hsays
  | some node =>
      rw [hnode] at hsays
      obtain ⟨settings, hok, hvalue⟩ := hsays
      rw [Option.bind_some, ← hvalue]
      exact says_read hstores hkey (by decide) hok

theorem stores_outputDirectory :
    Stores settingsSchema.fields "output_dir" Config.outputDirectory
      fun _ => Node.IsOptionalText := by
  refine .this (fun _ _ _ _ => Reading.option_ok fun _ _ _ => Reading.path_ok) ?_
  refine .other (by decide) (fun _ _ => rfl) (.other (by decide) (fun _ _ => rfl) ?_)
  exact .other (by decide) (fun _ _ => rfl) .nil

theorem stores_targets :
    Stores settingsSchema.fields "targets" Config.targets fun _ => Node.IsTexts := by
  refine .other (by decide) (fun _ _ => rfl) (.this (fun _ _ _ _ => Reading.list_ok) ?_)
  exact .other (by decide) (fun _ _ => rfl) (.other (by decide) (fun _ _ => rfl) .nil)

theorem stores_bridgeModule :
    Stores settingsSchema.fields "bridge_module" Config.bridgeModule
      fun _ => Node.IsOptionalText := by
  refine .other (by decide) (fun _ _ => rfl) (.other (by decide) (fun _ _ => rfl) ?_)
  refine .this (fun _ _ _ _ => Reading.option_ok fun _ _ _ => Reading.string_ok) ?_
  exact .other (by decide) (fun _ _ => rfl) .nil

theorem stores_postProcess :
    Stores settingsSchema.fields "post_process" Config.postProcess fun _ => Node.IsFlag := by
  refine .other (by decide) (fun _ _ => rfl) (.other (by decide) (fun _ _ => rfl) ?_)
  exact .other (by decide) (fun _ _ => rfl) (.this (fun _ _ _ _ => Reading.bool_ok) .nil)

theorem stores_commands :
    Stores schema.fields "post_process" Config.commands
      fun r node commands => readCommands r node = .ok commands :=
  .other (by decide) (fun _ _ => rfl) (.this (fun _ _ _ _ h => h) .nil)

/-- The command of a step is what the document says of it. -/
theorem says_command (h : parse text = .ok c) (step : String) :
    Says Node.IsCommand (stepNode? text step) none (c.commands.get? step) := by
  have hsays := says_read stores_commands (by decide) (by decide) (read_of_parse h)
  rw [stepNode?]
  cases hnode : schema.given? "post_process" (Toml.document text).root with
  | none =>
      rw [hnode] at hsays
      have hempty : c.commands = ∅ := hsays
      rw [hempty]
      exact rfl
  | some node =>
      rw [hnode] at hsays
      obtain ⟨commands, hread, hcommands⟩ := map_eq_ok_iff.1 hsays
      rw [← hcommands, SortedMap.get?_ofList_entries, Option.bind_some]
      cases node with
      | table nodes => exact Reading.get?_entries hread step
      | _ => cases hread

/-- What a configuration holds is what its text says. -/
structure Holds (text : String) (c : Config) : Prop where
  outputDirectory : Says Node.IsSomeText (setting? text "output_dir") none c.outputDirectory
  targets : Says Node.IsTexts (setting? text "targets") [] c.targets
  bridgeModule : Says Node.IsSomeText (setting? text "bridge_module") none c.bridgeModule
  postProcess : Says Node.IsFlag (setting? text "post_process") true c.postProcess
  commands : ∀ step, Says Node.IsCommand (stepNode? text step) none (c.commands.get? step)

theorem says_filter {α : Type} {stands stands' : Node → α → Prop} {node : Option Node}
    {start value : α} (hstands : ∀ node value, stands node value →
      (node = .null ∧ value = start) ∨ (node.isNull = false ∧ stands' node value))
    (h : Says stands node start value) :
    Says stands' (node.filter fun node => !node.isNull) start value := by
  cases node with
  | none => exact h
  | some node =>
      rcases hstands node value h with ⟨rfl, rfl⟩ | ⟨hnull, hstands'⟩
      · exact rfl
      · simpa [Option.filter, hnull, Says] using hstands'

theorem holds_parse (h : parse text = .ok c) : Holds text c := by
  have hoptional {node : Node} {value : Option String} (h : node.IsOptionalText value) :
      (node = .null ∧ value = none) ∨ (node.isNull = false ∧ node.IsSomeText value) := by
    refine h.imp id fun hsome => ⟨?_, hsome⟩
    obtain ⟨text, rfl, -⟩ := hsome
    rfl
  constructor
  case outputDirectory =>
    exact says_filter (fun _ _ => hoptional)
      (says_setting stores_outputDirectory (by decide) (fun _ _ => rfl) h)
  case targets =>
    refine says_filter (fun node values hlist => .inr ⟨?_, hlist⟩)
      (says_setting stores_targets (by decide) (fun _ _ => rfl) h)
    rw [hlist]
    rfl
  case bridgeModule =>
    exact says_filter (fun _ _ => hoptional)
      (says_setting stores_bridgeModule (by decide) (fun _ _ => rfl) h)
  case postProcess =>
    refine says_filter (fun node value hflag => .inr ⟨?_, hflag⟩)
      (says_setting stores_postProcess (by decide) (fun _ _ => rfl) h)
    rw [hflag]
    rfl
  case commands => exact says_command h

/-! ## One configuration over another -/

theorem isSomeText_ne_none (node : Node) (value : Option String) (h : node.IsSomeText value) :
    value ≠ none := by
  obtain ⟨text, -, rfl⟩ := h
  exact Option.some_ne_none text

theorem says_getD {node : Option Node} {value : Option String} {start : String}
    (h : Says Node.IsSomeText node none value) :
    Says Node.IsText node start (value.getD start) := by
  cases node with
  | none =>
      obtain rfl : value = none := h
      exact rfl
  | some node =>
      obtain ⟨text, rfl, rfl⟩ := h
      exact rfl

/-- What both leave unset is unset. -/
theorem says_orElse {α : Type} {stands : Node → Option α → Prop} {node node' : Option Node}
    {value value' : Option α} (hstands : ∀ node value, stands node value → value ≠ none)
    (h : Says stands node none value) (h' : Says stands node' none value') :
    Says stands (node'.or node) none (value' <|> value) := by
  cases node' with
  | none =>
      obtain rfl : value' = none := h'
      exact h
  | some node' =>
      obtain ⟨text, rfl⟩ := Option.ne_none_iff_exists'.1 (hstands node' value' h')
      exact h'

/-- Targets are those of the project, unless it says that there are none. -/
theorem says_targets_iff {node node' : Option Node} {values values' : List String}
    (h : Says Node.IsTexts node [] values) (h' : Says Node.IsTexts node' [] values') :
    Says Node.IsTexts (node'.or node) [] (if values'.isEmpty then values else values') ↔
      ¬ (node' = some (.list []) ∧ ∃ first rest, node = some (.list (first :: rest))) := by
  cases node' with
  | none =>
      obtain rfl : values' = [] := h'
      simpa using h
  | some node' =>
      obtain rfl : node' = .list (values'.map .string) := h'
      cases values' with
      | cons value values' => simp [Says, Node.IsTexts]
      | nil =>
          cases node with
          | none =>
              obtain rfl : values = [] := h
              simp [Says, Node.IsTexts]
          | some node =>
              obtain rfl : node = .list (values.map .string) := h
              cases values <;> simp [Says, Node.IsTexts]

/-- There is post-processing if the project asks for it, unless the user has ruled it out. -/
theorem says_postProcess_iff {node node' : Option Node} {value value' : Bool}
    (h : Says Node.IsFlag node true value) (h' : Says Node.IsFlag node' true value') :
    Says Node.IsFlag (node'.or node) true (value && value') ↔
      ¬ (node' = some (.bool true) ∧ node = some (.bool false)) := by
  cases node' with
  | none =>
      obtain rfl : value' = true := h'
      simpa using h
  | some node' =>
      obtain rfl : node' = .bool value' := h'
      cases value' with
      | false => simp [Says, Node.IsFlag]
      | true =>
          cases node with
          | none =>
              obtain rfl : value = true := h
              simp [Says, Node.IsFlag]
          | some node =>
              obtain rfl : node = .bool value := h
              cases value <;> simp [Says, Node.IsFlag]

theorem loadOrDefault_eq {fs : FileSystem} {path : String} (htext : fs.readText path = .ok text)
    (h : parse text = .ok c) : loadOrDefault fs path = c := by
  have hexists : fs.exists? path = true := by
    rw [FileSystem.readText] at htext
    rw [FileSystem.exists?, FileSystem.entry?]
    cases hlocate : fs.locate path with
    | error fault => simp [hlocate, bind, Except.bind] at htext
    | ok found =>
        obtain ⟨l, _ | e⟩ := found
        · simp [hlocate, bind, Except.bind, throw, throwThe, MonadExceptOf.throw] at htext
        · rfl
  rw [loadOrDefault, if_pos hexists, load, htext]
  simp only [h]
  rfl

/-- The configuration of a project laid over that of a user holds, setting by setting, what the text
of the project sets, or else what that of the user sets, or else the default. It always does for the
output directory, the bridge module and the commands of steps. -/
structure Overlaid (user project : String) (c : Config) : Prop where
  output : Says Node.IsText
    ((setting? project "output_dir").or (setting? user "output_dir")) "bindings" c.output
  bridgeModule : Says Node.IsSomeText
    ((setting? project "bridge_module").or (setting? user "bridge_module")) none c.bridgeModule
  commands : ∀ step, Says Node.IsCommand
    ((stepNode? project step).or (stepNode? user step)) none (c.commands.get? step)
  /-- Unless the project names no targets and the user some. -/
  targets : Says Node.IsTexts
      ((setting? project "targets").or (setting? user "targets")) [] c.targets ↔
    ¬ (setting? project "targets" = some (.list []) ∧
      ∃ first rest, setting? user "targets" = some (.list (first :: rest)))
  /-- Unless the project asks for post-processing and the user rules it out. -/
  postProcess : Says Node.IsFlag
      ((setting? project "post_process").or (setting? user "post_process")) true c.postProcess ↔
    ¬ (setting? project "post_process" = some (.bool true) ∧
      setting? user "post_process" = some (.bool false))

/-- For every two texts that are configurations. -/
theorem overlaid_loadLayers {fs : FileSystem} {userPath projectPath user project : String}
    {u p : Config} (huser : fs.readText userPath = .ok user)
    (hproject : fs.readText projectPath = .ok project) (hu : parse user = .ok u)
    (hp : parse project = .ok p) :
    Overlaid user project (loadLayers fs (some userPath) projectPath) := by
  have hlayers : loadLayers fs (some userPath) projectPath = (default.merge u).merge p := by
    rw [loadLayers, loadOrDefault_eq hproject hp]
    simp only [loadOrDefault_eq huser hu]
  have hu := holds_parse hu
  have hp := holds_parse hp
  rw [hlayers]
  constructor
  case output =>
    have hdirectory := says_orElse isSomeText_ne_none hu.outputDirectory hp.outputDirectory
    have hmerge : ((default.merge u).merge p).output =
        (p.outputDirectory <|> u.outputDirectory).getD "bindings" := by
      simp [merge, output, default, defaultOutputDirectory]
    rw [hmerge]
    exact says_getD hdirectory
  case bridgeModule =>
    have hmerge : ((default.merge u).merge p).bridgeModule =
        (p.bridgeModule <|> u.bridgeModule) := by
      simp [merge, default]
    rw [hmerge]
    exact says_orElse isSomeText_ne_none hu.bridgeModule hp.bridgeModule
  case commands =>
    intro step
    have hmerge : ((default.merge u).merge p).commands.get? step =
        (p.commands.get? step <|> u.commands.get? step) := by
      have hempty : (∅ : SortedMap StepCommand).get? step = none := rfl
      simp [merge, default, SortedMap.get?_union, hempty]
    rw [hmerge]
    refine says_orElse ?_ (hu.commands step) (hp.commands step)
    rintro node value ⟨command, -, rfl⟩
    exact Option.some_ne_none command
  case targets =>
    have hmerge : ((default.merge u).merge p).targets =
        if p.targets.isEmpty then u.targets else p.targets := by
      cases htargets : u.targets <;> simp [merge, default, htargets]
    rw [hmerge]
    exact says_targets_iff hu.targets hp.targets
  case postProcess =>
    have hmerge : ((default.merge u).merge p).postProcess = (u.postProcess && p.postProcess) := by
      simp [merge, default]
    rw [hmerge]
    exact says_postProcess_iff hu.postProcess hp.postProcess

/-- Files with the configuration of a user and that of a project. -/
def layered (user project : String) : FileSystem :=
  ⟨.directory [("config.toml", .file (.text user)), ("bindspec.toml", .file (.text project))], []⟩

theorem readText_user (user project : String) :
    (layered user project).readText "config.toml" = .ok user :=
  FileSystem.readText_name (by decide +kernel) (by decide +kernel) rfl

theorem readText_project (user project : String) :
    (layered user project).readText "bindspec.toml" = .ok project :=
  FileSystem.readText_name (by decide +kernel) (by decide +kernel) rfl

theorem overlaid_loadLayers_layered :
    let user := "[generate]\ntargets = [\"py\"]\n"
    let project := "[generate]\ntargets = [\"ts\"]\n"
    (layered user project).readText "config.toml" = .ok user ∧
      (layered user project).readText "bindspec.toml" = .ok project ∧
      parse user = .ok { targets := ["py"] } ∧ parse project = .ok { targets := ["ts"] } ∧
      Overlaid user project
        (loadLayers (layered user project) (some "config.toml") "bindspec.toml") := by
  intro user project
  have huser := readText_user user project
  have hproject := readText_project user project
  have hu : parse user = .ok { targets := ["py"] } := by decide +kernel
  have hp : parse project = .ok { targets := ["ts"] } := by decide +kernel
  exact ⟨huser, hproject, hu, hp, overlaid_loadLayers huser hproject hu hp⟩

/-- The project asks for post-processing and is not heard. -/
theorem postProcess_loadLayers_layered :
    let user := "[generate]\npost_process = false\n"
    let project := "[generate]\npost_process = true\n"
    parse user = .ok { postProcess := false } ∧ parse project = .ok { postProcess := true } ∧
      setting? project "post_process" = some (.bool true) ∧
      (loadLayers (layered user project) (some "config.toml") "bindspec.toml").postProcess =
        false := by
  intro user project
  have hu : parse user = .ok { postProcess := false } := by decide +kernel
  have hp : parse project = .ok { postProcess := true } := by decide +kernel
  have huser := loadOrDefault_eq (readText_user user project) hu
  have hproject := loadOrDefault_eq (readText_project user project) hp
  refine ⟨hu, hp, by decide +kernel, ?_⟩
  rw [loadLayers, hproject]
  simp only [huser]
  rfl

end Config

end Bindery
