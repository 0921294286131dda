import Bindery.Command.Arguments
import Bindery.Generation
import Bindery.Spec.File

/-!
Commands: what each prints, what it leaves on the machine, and its exit status.
-/

namespace Bindery

/-- What surrounds a command. -/
structure Environment where
  /-- The directory of the user. -/
  home : Option String := none
  /-- The output directory that counts if none is given. -/
  output : Option String := none
  deriving Repr

/-- What comes of a command. -/
structure Outcome where
  /-- Zero, one if nothing could be done, two if a target was given up. -/
  status : Nat
  output : String := ""
  log : List LogEntry := []
  /-- What is printed beside the output, behind the log. -/
  complaints : String := ""
  machine : Machine

namespace Command

def versionText : String := "bindspec 0.1.0\n"

/-- Why nothing could be done. -/
inductive Failure where
  | spec (fault : SpecFault)
  /-- There is no working directory. -/
  | astray (cause : OsFault)
  | unknownTarget (name : String)
  deriving DecidableEq, Repr

def Failure.message : Failure → String
  | .spec fault => fault.message
  | .astray cause => cause.message
  | .unknownTarget name => TargetId.unknownMessage name

/-- The targets of that names, unless one of them is unknown. -/
def targetIds : List String → Except Failure (List TargetId)
  | [] => pure []
  | name :: names =>
    match TargetId.ofName? name with
    | none => throw (.unknownTarget name)
    | some id => do
      let ids ← targetIds names
      pure (id :: ids)

/-- The diagnostics of a run, with the spec file as the place of errors. -/
def complaintsOf (spec : String) (r : Report) : String :=
  String.join (r.targets.flatMap fun t =>
    t.stepDiagnostics.map (Diagnostic.render false) ++
      (t.diagnostic.map fun d =>
        ({ d with location := some spec } : Diagnostic).render false).toList)

def reportText (json : Bool) (r : Report) : String :=
  if json then r.toJson.indented ++ "\n" else r.text

/-- What comes of a run; `log` is what was noted before it. -/
def finish (spec : String) (json : Bool) (log : List LogEntry) (run : Run Report Machine) :
    Outcome where
  status := if run.report.hasErrors then 2 else 0
  output := reportText json run.report
  log := log ++ run.log
  complaints := complaintsOf spec run.report
  machine := run.state

/-- What comes of a command that can do nothing. -/
def failed (failure : Failure) (log : List LogEntry) (m : Machine) : Outcome where
  status := 1
  log := log
  complaints := "error: " ++ failure.message ++ "\n"
  machine := m

def loadedLog (spec : String) (s : Spec) : List LogEntry :=
  [.debug s!"loaded {s.entityCount} entities from {spec}"]

/-- The path of a user's configuration. -/
def userConfig (e : Environment) : Option String :=
  e.home.map fun home => Path.join (Path.join home ".bindspec") "config.toml"

/-- The path of the configuration of a project in a directory. -/
def projectConfig (directory : String) : String :=
  Path.join directory "bindspec.toml"

/-- The configuration that counts in the working directory. -/
def configOf (e : Environment) (fs : FileSystem) : Config :=
  Config.loadLayers fs (userConfig e) (projectConfig fs.workingPath)

/-- The options of a run: the command line counts before the configuration. -/
def optionsOf (a : GenerateArguments) (e : Environment) (config : Config)
    (targets : List TargetId) : GenerateOptions where
  targets := targets
  outputDirectory := (a.output <|> e.output).getD config.output
  bridgeModule := a.bridgeModule <|> config.bridgeModule
  postProcess := !a.noPostProcess && config.postProcess
  clean := a.clean
  dryRun := a.dryRun
  config := config

/-- The files that a command reads in a directory. -/
def sources (c : Command) (e : Environment) (directory : String) : List String :=
  match c with
  | .generate a => a.spec :: projectConfig directory :: (userConfig e).toList
  | .check a => [a.spec]
  | .targets _ | .version => []

/-- The files that a command may write, given those that it reads. -/
def products (c : Command) (e : Environment) (fs : FileSystem) : List String :=
  match c with
  | .generate a =>
    let options := optionsOf a e (configOf e fs) []
    Target.registry.flatMap fun t => t.unitNames.map (Path.join (options.root t.id))
  | .check _ | .targets _ | .version => []

def runGenerate (a : GenerateArguments) (e : Environment) (m : Machine) : Outcome :=
  match Spec.load m.files a.spec with
  | .error fault => failed (.spec fault) [] m
  | .ok spec =>
    match m.files.workingDirectory with
    | .error cause => failed (.astray cause) (loadedLog a.spec spec) m
    | .ok directory =>
      let config := configOf e m.files
      let log := loadedLog a.spec spec ++
        Config.layerLog m.files (userConfig e) (projectConfig directory)
      match targetIds (if a.targets.isEmpty then config.targets else a.targets) with
      | .error failure => failed failure log m
      | .ok ids =>
        let options := optionsOf a e config ids
        let start := LogEntry.debug
          s!"generating {spec.entityCount} entities into {options.outputDirectory}"
        finish a.spec a.json (log ++ [start]) (Report.generate spec options m)

/-- Generates in memory only. -/
def runCheck (a : CheckArguments) (m : Machine) : Outcome :=
  match Spec.load m.files a.spec with
  | .error fault => failed (.spec fault) [] m
  | .ok spec =>
    match targetIds a.targets with
    | .error failure => failed failure (loadedLog a.spec spec) m
    | .ok ids =>
      let options : GenerateOptions := { targets := ids, dryRun := true, postProcess := false }
      let run := Report.generate spec options m
      let outcome := finish a.spec a.json (loadedLog a.spec spec) run
      if a.json || run.report.hasErrors then outcome
      else { outcome with
        output := outcome.output ++
          s!"{a.spec}: ok ({run.report.placeholderCount} placeholder(s))\n" }

def padded (width : Nat) (s : String) : String :=
  s ++ String.ofList (List.replicate (width - s.length) ' ')

/-- What a target is called and what it knows, at length or on one line each. -/
def targetLines (mappings : Bool) (t : Target) : List String :=
  let m := t.mapping
  [s!"  {t.id.name} - {t.description}",
    s!"    Naming:     {m.naming.title}",
    s!"    Bridge:     {t.bridgeModule}"] ++
  (if mappings then
    ["    Primitives:"] ++
      (m.primitives.map fun (name, text) => "      " ++ padded 18 name ++ " " ++ text) ++
      ["    Templates:"] ++ (m.templates.map fun (name, _) => "      " ++ name)
  else
    ["    Primitives: " ++ Text.joined ", " (m.primitives.map Prod.fst),
      "    Templates:  " ++ Text.joined ", " (m.templates.map Prod.fst)]) ++
  [""]

def targetsText (mappings : Bool) : String :=
  String.join ((["Targets:", ""] ++ Target.registry.flatMap (targetLines mappings)).map (· ++ "\n"))

def run (c : Command) (e : Environment) (m : Machine) : Outcome :=
  match c with
  | .generate a => runGenerate a e m
  | .check a => runCheck a m
  | .targets mappings => { status := 0, output := targetsText mappings, machine := m }
  | .version => { status := 0, output := versionText, machine := m }

/-- Reads a command line. The environment may give the output directory, but not an empty one. -/
def accept (words : List String) (e : Environment) : Except UsageFault Invocation := do
  let invocation ← Arguments.parse words
  match invocation.command with
  | .generate a =>
    if (a.output <|> e.output) = some "" then throw (.missingValue "output") else pure invocation
  | .check _ | .targets _ | .version => pure invocation

/-- Runs a command line. One that is refused, or whose command can do nothing, leaves the machine
alone. The log holds what it is to show. -/
def execute (words : List String) (e : Environment) (m : Machine) : Outcome :=
  match accept words e with
  | .error fault => { status := 2, complaints := "error: " ++ fault.message ++ "\n", machine := m }
  | .ok invocation =>
    let outcome := invocation.command.run e m
    { outcome with log := outcome.log.filter (LogEntry.isShown invocation.verbose) }

end Command

end Bindery
