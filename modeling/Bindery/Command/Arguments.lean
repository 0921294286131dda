import Bindery.Files.Path

/-!
Command lines: from words to a command. Options may stand anywhere, in a long and a short form,
and their values behind an equals sign, behind the letter, or in the next word.
-/

namespace Bindery

structure GenerateArguments where
  spec : String
  targets : List String := []
  output : Option String := none
  bridgeModule : Option String := none
  noPostProcess : Bool := false
  clean : Bool := false
  dryRun : Bool := false
  json : Bool := false
  deriving DecidableEq, Repr

structure CheckArguments where
  spec : String
  targets : List String := []
  json : Bool := false
  deriving DecidableEq, Repr

inductive Command where
  | generate (arguments : GenerateArguments)
  | check (arguments : CheckArguments)
  | targets (mappings : Bool)
  | version
  deriving DecidableEq, Repr

/-- A command with what holds for all of them. -/
structure Invocation where
  command : Command
  verbose : Bool := false
  noColour : Bool := false
  deriving DecidableEq, Repr

/-- Why a command line is refused. -/
inductive UsageFault where
  | noCommand
  | unexpected (word : String)
  | repeated (option : String)
  | missingValue (option : String)
  | unexpectedValue (option : String)
  | missingSpec
  deriving DecidableEq, Repr

def UsageFault.message : UsageFault → String
  | .noCommand => "a command is required: generate, check or targets"
  | .unexpected word => s!"unexpected argument '{word}'"
  | .repeated option => s!"the argument '--{option}' cannot be used multiple times"
  | .missingValue option => s!"a value is required for '--{option}'"
  | .unexpectedValue option => s!"no value is expected for '--{option}'"
  | .missingSpec => "a spec file is required"

namespace Arguments

/-- What an option takes. -/
inductive Kind where
  | flag
  /-- A flag that says all: nothing behind it is read. -/
  | final
  | value
  /-- A value that is not empty. -/
  | path
  /-- A value, and more of them with every use. -/
  | values
  deriving DecidableEq, Repr

structure Known where
  long : String
  short : Option Char := none
  kind : Kind := .flag
  deriving Repr

/-- An option with its value, which is empty for flags, or a word that is none. -/
inductive Token where
  | option (name value : String)
  | word (text : String)
  deriving DecidableEq, Repr

/-- A single hyphen is no option. -/
def looksLikeOption (word : String) : Bool :=
  word.startsWith "-" && word ≠ "-"

/-- Reads the letters behind a hyphen. The last option may want its value from the next word. -/
def letters (known : List Known) : List Char → Except UsageFault (List Token × Option String)
  | [] => pure ([], none)
  | c :: cs =>
    match known.find? (·.short = some c) with
    | none => throw (.unexpected ("-" ++ String.ofList [c]))
    | some option =>
      if option.kind = .final then pure ([.option option.long ""], none)
      else if option.kind = .flag then do
        let (tokens, pending) ← letters known cs
        pure (.option option.long "" :: tokens, pending)
      else
        match cs with
        | [] => pure ([], some option.long)
        | '=' :: value => pure ([.option option.long (String.ofList value)], none)
        | value => pure ([.option option.long (String.ofList value)], none)

/-- Reads a word behind two hyphens. -/
def longOption (known : List Known) (text : List Char) :
    Except UsageFault (List Token × Option String) :=
  let name := String.ofList (text.takeWhile (· ≠ '='))
  let value := text.dropWhile (· ≠ '=')
  match known.find? (·.long = name) with
  | none => throw (.unexpected ("--" ++ name))
  | some option =>
    match value, option.kind with
    | [], .flag | [], .final => pure ([.option name ""], none)
    | [], _ => pure ([], some name)
    | _ :: _, .flag | _ :: _, .final => throw (.unexpectedValue name)
    | _ :: value, _ => pure ([.option name (String.ofList value)], none)

/-- Whether nothing behind the token is read. -/
def ends (known : List Known) : Token → Bool
  | .option name _ => known.any fun k => k.long = name && k.kind = .final
  | .word _ => false

/-- Takes words apart. `pending` is an option that waits for its value. -/
def tokens (known : List Known) : Option String → List String → Except UsageFault (List Token)
  | none, [] => pure []
  | some name, [] => throw (.missingValue name)
  | some name, word :: words =>
    if looksLikeOption word then throw (.missingValue name) else do
      let rest ← tokens known none words
      pure (.option name word :: rest)
  | none, word :: words =>
    if word = "--" then pure (words.map .word)
    else if !looksLikeOption word then do
      let rest ← tokens known none words
      pure (.word word :: rest)
    else do
      let (found, pending) ←
        match word.toList with
        | '-' :: '-' :: text => longOption known text
        | _ :: text => letters known text
        | [] => pure ([], none)
      if found.any (ends known) then pure found else do
        let rest ← tokens known pending words
        pure (found ++ rest)

def words (ts : List Token) : List String :=
  ts.filterMap fun | .word text => some text | .option .. => none

/-- All values of an option. -/
def valuesOf (name : String) (ts : List Token) : List String :=
  ts.filterMap fun | .option n value => if n = name then some value else none | .word _ => none

def has (name : String) (ts : List Token) : Bool :=
  !(valuesOf name ts).isEmpty

def single (name : String) (ts : List Token) : Option String :=
  (valuesOf name ts).head?

/-- Whether an option is used as it may be. -/
def check (ts : List Token) (k : Known) : Except UsageFault Unit :=
  let vs := valuesOf k.long ts
  if k.kind ≠ .values && 1 < vs.length then throw (.repeated k.long)
  else if k.kind = .path && vs.contains "" then throw (.missingValue k.long)
  else pure ()

def globalOptions : List Known := [⟨"verbose", some 'v', .flag⟩, ⟨"no-color", none, .flag⟩]

def generateOptions : List Known := globalOptions ++ [
  ⟨"target", some 't', .values⟩, ⟨"output", some 'o', .path⟩, ⟨"bridge-module", none, .value⟩,
  ⟨"no-post-process", none, .flag⟩, ⟨"clean", none, .flag⟩, ⟨"dry-run", none, .flag⟩,
  ⟨"json", none, .flag⟩]

def checkOptions : List Known := globalOptions ++ [
  ⟨"target", some 't', .values⟩, ⟨"json", none, .flag⟩]

def targetsOptions : List Known := globalOptions ++ [⟨"mappings", none, .flag⟩]

/-- Takes the words of a command apart and checks the use of its options. -/
def read (known : List Known) (ws : List String) : Except UsageFault (List Token) := do
  let ts ← tokens known none ws
  known.forM (check ts)
  pure ts

/-- The one word that names the spec. -/
def specWord (ts : List Token) : Except UsageFault String :=
  match words ts with
  | [] | [""] => throw .missingSpec
  | [spec] => pure spec
  | _ :: word :: _ => throw (.unexpected word)

def noWord (ts : List Token) : Except UsageFault Unit :=
  match words ts with
  | [] => pure ()
  | word :: _ => throw (.unexpected word)

/-- The command of that name with its words. -/
def command (name : String) (ws : List String) : Except UsageFault (Command × List Token) :=
  match name with
  | "generate" => do
    let ts ← read generateOptions ws
    let spec ← specWord ts
    pure (.generate {
      spec
      targets := valuesOf "target" ts
      output := single "output" ts
      bridgeModule := single "bridge-module" ts
      noPostProcess := has "no-post-process" ts
      clean := has "clean" ts
      dryRun := has "dry-run" ts
      json := has "json" ts }, ts)
  | "check" => do
    let ts ← read checkOptions ws
    let spec ← specWord ts
    pure (.check { spec, targets := valuesOf "target" ts, json := has "json" ts }, ts)
  | "targets" => do
    let ts ← read targetsOptions ws
    noWord ts
    pure (.targets (has "mappings" ts), ts)
  | name => throw (.unexpected name)

def outerOptions : List Known := ⟨"version", some 'V', .final⟩ :: globalOptions

/-- Options before the command, and the words from the command on. -/
def splitCommand (ws : List String) : List String × List String :=
  (ws.takeWhile looksLikeOption, ws.dropWhile looksLikeOption)

/-- Reads a command line. No command follows two hyphens that stand alone, and none is needed to
ask for the version. -/
def parse (ws : List String) : Except UsageFault Invocation := do
  let (before, rest) := splitCommand ws
  let outer ← read outerOptions before
  if has "version" outer then pure { command := .version }
  else if let word :: _ := words outer ++ (if before.contains "--" then rest else []) then
    throw (.unexpected word)
  else
    match rest with
    | [] => throw .noCommand
    | name :: ws => do
      let (command, inner) ← command name ws
      pure {
        command
        verbose := has "verbose" outer || has "verbose" inner
        noColour := has "no-color" outer || has "no-color" inner }

end Arguments

end Bindery
