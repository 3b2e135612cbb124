import GraphImport.CommandLine.Switch
import GraphImport.Files.Path
import GraphImport.Options.Basic
import GraphImport.Report.Output
/-!
# The commands

The program itself has switches for logging and for the environment file; the command `validate`
has those that describe a run. A request is what arguments ask for.
-/
namespace GraphImport.CommandLine

open Files (Path)

def programName : String := "graphload"

def versionText : String := "0.1.0"

inductive ProgramOption
  | version
  | noEnvFile
  | envFile
  | verbose
  | jsonLogs
  | completion
  | help
deriving DecidableEq, Repr

def programSwitches : List (Switch ProgramOption) := [
  { option := .version, long := "--version", letter := some 'V' },
  { option := .noEnvFile, long := "--no-dotenv" },
  { option := .envFile, long := "--env-file", takesValue := true },
  { option := .verbose, long := "--verbose", letter := some 'v' },
  { option := .jsonLogs, long := "--json-logs" },
  { option := .completion, long := "--install-completion" },
  { option := .completion, long := "--show-completion" },
  { option := .help, long := "--help" }]

inductive ValidateOption
  | jobSpec
  | connectionUri
  | connectionSecret
  | settings
  | format
  | help
deriving DecidableEq, Repr

def validateSwitches : List (Switch ValidateOption) := [
  { option := .jobSpec, long := "--job-spec", letter := some 'j', takesValue := true },
  { option := .connectionUri, long := "--connection-uri", takesValue := true },
  { option := .connectionSecret, long := "--connection-secret", takesValue := true },
  { option := .settings, long := "--settings", letter := some 's', takesValue := true },
  { option := .format, long := "--format", letter := some 'f', takesValue := true },
  { option := .help, long := "--help" }]

def commandNames : List String := ["validate"]

/-- Which command a usage or a help text is about. -/
inductive Scope
  | program
  | validate
deriving DecidableEq, Repr

namespace Scope

def usage : Scope → String
  | .program => s!"Usage: {programName} [OPTIONS] COMMAND [ARGS]..."
  | .validate => s!"Usage: {programName} validate [OPTIONS]"

def helpHint : Scope → String
  | .program => s!"Try '{programName} --help' for help."
  | .validate => s!"Try '{programName} validate --help' for help."

end Scope

/-- How the program is set up before a command runs. -/
structure Setup where
  usesEnvFile : Bool := true
  envFile : Option Path := none
  verbose : Bool := false
  jsonLogs : Bool := false
deriving DecidableEq, Repr

/-- What the command line asks of the program. -/
inductive Request
  | version
  | help
  | command (setup : Setup) (arguments : List String)
deriving DecidableEq, Repr

/-- What comes before anything else, if it is given: the first of such options. -/
def urgent? (p : Parsed ProgramOption) : Option Request :=
  p.options.findSome? fun (option, _) => match option with
    | .version => some .version
    | .help | .completion => some .help
    | _ => none

def setupOf (p : Parsed ProgramOption) : Setup where
  usesEnvFile := !p.has .noEnvFile
  envFile := (p.value? .envFile).map Path.ofText
  verbose := p.has .verbose
  jsonLogs := p.has .jsonLogs

/-- What a word is that names no command. One that begins like a switch is tried as such first. -/
def unknownCommand (name : String) (rest : List String) : Except UsageFault Request := do
  if "-".isPrefixOf name then
    let p ← Switch.parse programSwitches false (name :: rest)
    match urgent? p with
    | some request => return request
    | none => throw (.noSuchCommand name (Text.similarWords name commandNames))
  else throw (.noSuchCommand name (Text.similarWords name commandNames))

/-- Reads the arguments of the program. -/
def Request.read (args : List String) : Except UsageFault Request := do
  if args.isEmpty then return .help
  let p ← Switch.parse programSwitches false args
  match urgent? p with
  | some request => return request
  | none => match p.arguments with
    | [] => throw .commandMissing
    | name :: rest =>
      if commandNames.contains name then return .command (setupOf p) rest
      else unknownCommand name rest

/-- A run to be validated. -/
structure Validation where
  explicit : Options.RunOptions := {}
  settings : Option Path := none
  format : Report.Format := .console
deriving DecidableEq, Repr

/-- Reads the arguments of the command; none when they ask for help. -/
def Validation.read? (args : List String) : Except UsageFault (Option Validation) := do
  let p ← Switch.parse validateSwitches true args
  if p.has .help then return none
  let format ← match p.value? .format with
    | none => pure Report.Format.console
    | some word => match Report.Format.ofWord? word with
      | some format => pure format
      | none => throw (.invalidFormat word)
  if !p.arguments.isEmpty then throw (.extraArguments p.arguments)
  return some {
    explicit := {
      connectionUri := p.value? .connectionUri
      connectionSecretId := p.value? .connectionSecret
      jobSpecUri := p.value? .jobSpec }
    settings := (p.value? .settings).map Path.ofText
    format }

end GraphImport.CommandLine
