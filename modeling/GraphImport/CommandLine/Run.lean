import GraphImport.CommandLine.Command
import GraphImport.EnvFile.Expansion
import GraphImport.Log.Session
import GraphImport.Options.Layers
/-!
# Running the program

A run reads its arguments, the environment and files, and ends with an exit code and output. Some
faults of files and of values in them end it without a report; they are kept apart.
-/
namespace GraphImport.CommandLine

open Files (FileFault Homes Path Tree)
open Report (Item Output)

/-- What a run finds around it. -/
structure Surroundings where
  files : Tree := {}
  env : List (String × String) := []
  home : Homes := {}

/-- A fault that ends a run without a report. -/
inductive Escape
  | envFile (fault : FileFault)
  | envEntry (fault : EnvFile.EntryFault)
  | settings (fault : Options.SettingsFault)
  | jobSpec (fault : Spec.RunFault)
  | rules (fault : Rules.UnknownTargetType)
  | log (fault : Log.CallFault)

def Escape.message : Escape → String
  | .envFile fault => fault.message
  | .envEntry fault => fault.message
  | .settings fault => fault.message
  | .jobSpec fault => fault.message
  | .rules fault => fault.message
  | .log fault => fault.message

structure Outcome where
  exitCode : Nat
  output : Output := {}
  escaped : Option Escape := none

namespace Outcome

def usage (scope : Scope) (fault : UsageFault) : Outcome :=
  let before := if fault.showsUsage then [.text scope.usage, .text scope.helpHint] else []
  { exitCode := 2, output := .ofItems (before ++ [.panel "Error" fault.message]) }

def escape (e : Escape) : Outcome :=
  { exitCode := 1, escaped := some e }

/-- Puts output before that of an outcome. -/
def after (earlier : Output) (o : Outcome) : Outcome :=
  { o with output := earlier ++ o.output }

def help (scope : Scope) : Outcome :=
  { exitCode := 0, output := .ofLine scope.usage }

def version : Outcome :=
  { exitCode := 0, output := .ofLine s!"{programName} version {versionText}" }

end Outcome

def logged (lines : List Log.Line) : Output :=
  .ofItems (lines.map .log)

/-- The logging session of a run. -/
def sessionOf (setup : Setup) : Log.Session :=
  (({} : Log.Session).configure (if setup.jsonLogs then .json else .console)
    (if setup.verbose then "DEBUG" else "WARNING")).1

/-- The warning about a statement that cannot be read. -/
def unreadableCall (line : Nat) : Log.Call where
  level := .warning
  event := "python-dotenv could not parse statement starting at line %s"
  arguments := [.int line]

/-- The environment with what a file adds to it, and what is said about the file. -/
def addEnvFile (w : Surroundings) (s : Log.Session) (path : Path) :
    Except Outcome (List (String × String) × Output) := do
  if w.files.find? path == some .directory then return (w.env, {})
  let text ← (w.files.read path).mapError fun fault => .escape (.envFile fault)
  let contents := EnvFile.read text
  let warnings := contents.unreadable.flatMap fun line =>
    s.logPlain "envfile" (unreadableCall line)
  let said := logged warnings
  let env ← (EnvFile.apply w.env contents.entries).mapError fun fault =>
    (Outcome.escape (.envEntry fault)).after said
  return (env, said)

/-- What to go on with after the setup: the environment, or the outcome that ends the run. A file
of variables is read when the setup names it. When it names none, one is searched for beside the
installed program and in the directories above; that search is left out, as if it found none. -/
def prepare (w : Surroundings) (s : Log.Session) (setup : Setup) :
    Except Outcome (List (String × String) × Output) :=
  match setup.envFile with
  | none => .ok (w.env, {})
  | some path =>
    if !setup.usesEnvFile then
      .ok (w.env, .ofItems [.text "Warning: --env-file ignored because --no-dotenv is set."])
    else match w.files.has path with
      | .error fault => .error (.escape (.envFile fault))
      | .ok false =>
        let message := s!"Error: .env file not found: {path.text}"
        .error { exitCode := 1, output := .ofItems [.echoed message] }
      | .ok true => addEnvFile w s path

/-- Reports problems; a run without any is a success. -/
def conclude (format : Report.Format) (problems : List String) : Outcome :=
  { exitCode := if problems.isEmpty then 0 else 1, output := Report.ofProblems format problems }

/-- Reports that the job spec cannot be loaded, with the problems of the options. A document
reports both together. -/
def concludeUnloaded (format : Report.Format) (problems : List String) (n : Spec.Notice) :
    Outcome :=
  let report := match format, problems with
    | .json, _ => Report.ofProblems .json (problems ++ [n.message])
    | .console, [] => {}
    | .console, _ => Report.ofProblems .console problems
  { exitCode := 1, output := report ++ .ofItems [Report.ofNotice n] }

/-- The job spec a run names, if it names one and it can be loaded. -/
def loadNamed (w : Surroundings) (o : Options.RunOptions) :
    Except Spec.RunFault (Option Spec.JobSpec) :=
  match Options.given? o.jobSpecUri with
  | none => .ok none
  | some location => some <$> Spec.loadForRun w.home w.files location

/-- What the rules note about a job spec in the log. -/
def notesFor (s : Log.Session) (spec? : Option Spec.JobSpec) :
    List Log.Line × Option Log.CallFault :=
  match spec? with
  | none => ([], none)
  | some spec => s.logNotes (Rules.notesOf spec)

/-- Validates a run whose options are known. -/
def validateOptions (w : Surroundings) (s : Log.Session) (format : Report.Format)
    (o : Options.RunOptions) : Outcome :=
  match loadNamed w o with
  | .error (.notice n) => concludeUnloaded format (o.problems.map Options.Problem.message) n
  | .error fault => .escape (.jobSpec fault)
  | .ok spec? =>
    let (lines, fault?) := notesFor s spec?
    let outcome : Outcome := match fault?, Options.runMessages o spec? with
      | some fault, _ => .escape (.log fault)
      | none, .error fault => .escape (.rules fault)
      | none, .ok problems => conclude format problems
    outcome.after (logged lines)

/-- Runs the command. -/
def validate (w : Surroundings) (s : Log.Session) (v : Validation) : Outcome :=
  match Options.RunOptions.assemble w.files w.env v.settings v.explicit with
  | .ok o => validateOptions w s v.format o
  | .error (.absent path) =>
    let message := (Options.SettingsFault.absent path).message
    { exitCode := 1, output := .ofItems [.panel "File Not Found" message] }
  | .error fault => .escape (.settings fault)

/-- Runs the program with arguments. -/
def run (w : Surroundings) (args : List String) : Outcome :=
  match Request.read args with
  | .error fault => .usage .program fault
  | .ok .version => .version
  | .ok .help => .help .program
  | .ok (.command setup rest) =>
    let s := sessionOf setup
    match prepare w s setup with
    | .error outcome => outcome
    | .ok (env, said) =>
      let outcome : Outcome := match Validation.read? rest with
        | .error fault => .usage .validate fault
        | .ok none => .help .validate
        | .ok (some v) => validate { w with env } s v
      outcome.after said

/-- The job spec that a run would look for, as far as its options are known. -/
def specPath? (w : Surroundings) (v : Validation) : Option Path :=
  match Options.RunOptions.assemble w.files w.env v.settings v.explicit with
  | .error _ => none
  | .ok o => (Options.given? o.jobSpecUri).bind fun location =>
    (Path.ofText location).expandHome? w.home

/-- The paths that a run would look at, as far as they are known. Once the files of the setup and
the settings are among the surroundings, these are all of them. -/
def pathsFor (w : Surroundings) (args : List String) : List Path :=
  match Request.read args with
  | .ok (.command setup rest) =>
    let env := match prepare w (sessionOf setup) setup with
      | .ok (env, _) => env
      | .error _ => w.env
    let ofCommand := match Validation.read? rest with
      | .ok (some v) => v.settings.toList ++ (specPath? { w with env } v).toList
      | _ => []
    setup.envFile.toList ++ ofCommand
  | _ => []

end GraphImport.CommandLine
