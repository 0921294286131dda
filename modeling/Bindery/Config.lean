import Bindery.Files.Operations
import Bindery.Json.Basic
import Bindery.Log
import Bindery.SortedMap
import Bindery.Toml.Reader

/-!
Configuration: where output goes, which targets are meant, and what runs on written files. A
project's configuration counts before a user's.
-/

namespace Bindery

/-- A program to run on a written file; the file's name is added as the last argument. -/
structure StepCommand where
  program : String
  arguments : List String := []
  deriving DecidableEq, Repr, Inhabited

structure Config where
  outputDirectory : Option String := none
  /-- The targets that are meant if the command line names none. -/
  targets : List String := []
  bridgeModule : Option String := none
  postProcess : Bool := true
  /-- Commands for steps, in place of those built in. -/
  commands : SortedMap StepCommand := ∅
  deriving DecidableEq, Repr

/-- Why a configuration is refused. -/
inductive ConfigFault where
  | unreadable (fault : FileFault)
  | unparsed (path : String) (fault : Fault)
  deriving DecidableEq, Repr

namespace ConfigFault

/-- The outermost message, without its cause. -/
def headline : ConfigFault → String
  | .unreadable fault => fault.headline
  | .unparsed path _ => "failed to parse config file: " ++ path

end ConfigFault

namespace Config

def default : Config := {}

instance : Inhabited Config := ⟨default⟩

def defaultOutputDirectory : String := "bindings"

def builtinCommand (step : String) : Option StepCommand :=
  match step with
  | "eslint" => some ⟨"npx", ["eslint", "--fix"]⟩
  | "typescript-checker" => some ⟨"npx", ["tsc", "--noEmit"]⟩
  | "black" => some ⟨"black", ["-q"]⟩
  | "mypy" => some ⟨"mypy", []⟩
  | _ => none

/-- The command for a step: the configured one, or else the one built in. -/
def command (c : Config) (step : String) : Option StepCommand :=
  match c.commands.get? step with
  | some command => some command
  | none => builtinCommand step

def output (c : Config) : String :=
  c.outputDirectory.getD defaultOutputDirectory

/-- What `other` sets counts; post-processing runs only if both want it. -/
def merge (c other : Config) : Config where
  outputDirectory := other.outputDirectory <|> c.outputDirectory
  targets := if other.targets.isEmpty then c.targets else other.targets
  bridgeModule := other.bridgeModule <|> c.bridgeModule
  postProcess := c.postProcess && other.postProcess
  commands := c.commands.union other.commands

def settingsSchema : Schema Config where
  title := "struct GenerateConfig"
  fields := [
    .may "output_dir" (Reading.option Reading.path) fun x d => { x with outputDirectory := d },
    .may "targets" (Reading.list Reading.string) fun x targets => { x with targets },
    .may "bridge_module" (Reading.option Reading.string) fun x bridgeModule =>
      { x with bridgeModule },
    .may "post_process" Reading.bool fun x postProcess => { x with postProcess }]

def commandSchema : Schema StepCommand where
  title := "struct PostProcessCommand"
  fields := [
    .must "program" Reading.string fun x program => { x with program },
    .may "args" (Reading.list Reading.string) fun x arguments => { x with arguments }]

def readCommands (r : Reading) (node : Node) : Except Fault (SortedMap StepCommand) :=
  (fun m => SortedMap.ofList m.entries) <$> r.map (commandSchema.read Inhabited.default) node

def schema : Schema Config where
  title := "struct Config"
  fields := [
    .may "generate" (settingsSchema.read default) fun x settings =>
      { settings with commands := x.commands },
    .may "post_process" readCommands fun x commands => { x with commands }]

/-- Reads the text of a configuration. -/
def parse (text : String) : Except Fault Config :=
  (Toml.document text).read (schema.read default)

/-- Reads a configuration file. -/
def load (fs : FileSystem) (path : String) : Except ConfigFault Config :=
  match fs.readText path with
  | .error cause => .error (.unreadable ⟨.readConfig, path, cause⟩)
  | .ok text => (parse text).mapError (.unparsed path)

/-- The configuration of a file; the default one if the file is missing or cannot be read. -/
def loadOrDefault (fs : FileSystem) (path : String) : Config :=
  if fs.exists? path then ((load fs path).toOption).getD default else default

/-- The configuration of a user, if there is a path for it, overlaid by that of a project. -/
def loadLayers (fs : FileSystem) (user : Option String) (project : String) : Config :=
  let base := match user with
    | some path => default.merge (loadOrDefault fs path)
    | none => default
  base.merge (loadOrDefault fs project)

/-- A warning for every configuration that is there but cannot be read, and so is passed over. -/
def layerLog (fs : FileSystem) (user : Option String) (project : String) : List LogEntry :=
  (user.toList ++ [project]).filterMap fun path =>
    match load fs path with
    | .error fault =>
      if fs.exists? path then
        some (.warning ("Failed to load config from " ++ path ++ ": " ++ fault.headline))
      else none
    | .ok _ => none

def StepCommand.toJson (c : StepCommand) : Json :=
  .object [("program", .string c.program), ("args", .strings c.arguments)]

def toJson (c : Config) : Json :=
  .object [
    ("generate", .object [
      ("output_dir", .ofOption .string c.outputDirectory),
      ("targets", .strings c.targets),
      ("bridge_module", .ofOption .string c.bridgeModule),
      ("post_process", .bool c.postProcess)]),
    ("post_process", .object (c.commands.entries.map fun (step, command) =>
      (step, StepCommand.toJson command)))]

end Config

end Bindery
