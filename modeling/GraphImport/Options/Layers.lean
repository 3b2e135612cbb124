import GraphImport.Files.Tree
import GraphImport.Options.Basic
import GraphImport.Options.Literal
import GraphImport.Text.Capital
import GraphImport.Yaml.Reader
/-!
# Layers of run options

Run options come from a settings file, from the environment and from explicit arguments; each
layer overrides the one before. In the environment the variables of this program override those
that set an option for any program. In files and the environment names may be in any case, a later
entry overrides an earlier one, and the entry that counts may say that the option is not set.
-/
namespace GraphImport.Options

open Document (Value)
open Files (FileFault Path Tree)

inductive SettingsFault
  | absent (path : Path)
  | file (fault : FileFault)
  | yaml (fault : Yaml.Fault)
  | toml (text : List Char) (fault : Toml.Fault)
  | json (text : String) (fault : Json.Fault)
  | notMapping (kind : String)
  | conversion (fault : ConversionFault)

def SettingsFault.message : SettingsFault → String
  | .absent path => s!"Settings file not found: {path.text}"
  | .file fault => fault.message
  | .yaml fault => fault.message
  | .toml text fault => fault.message text
  | .json text fault => fault.message text
  | .notMapping kind => s!"'{kind}' object has no attribute 'items'"
  | .conversion fault => fault.message

/-- Named values, the later ones overriding the earlier ones. -/
abbrev Layer := List (String × Value)

/-- What the variables of this program begin with. -/
def variablePrefix : String := "GRAPHLOAD_"

/-- What the variables begin with that set an option for any program. -/
def commonPrefix : String := "DYNACONF_"

/-- The value that counts for a name; none when there is none or when it is null. -/
def Layer.text? (layer : Layer) (name : String) : Option String :=
  match layer.reverse.find? fun (known, _) => Text.capitals known == Text.capitals name with
  | none | some (_, .null) => none
  | some (_, v) => some v.plain

/-- The options in a layer. -/
def Layer.options (layer : Layer) : RunOptions where
  connectionUri := layer.text? "connection_uri"
  connectionSecretId := layer.text? "connection_secret_id"
  jobSpecUri := layer.text? "job_spec_uri"

/-- The layer of the environment variables that begin in a way. -/
def ofPrefixed (start : String) (env : List (String × String)) : Except SettingsFault Layer :=
  let own := env.filter fun (name, _) => start.isPrefixOf name
  own.mapM fun (name, text) => do
    let v ← (ofEnvironment text).mapError .conversion
    return (String.ofList (name.toList.drop start.length), v)

/-- The layer of the environment variables. -/
def ofVariables (env : List (String × String)) : Except SettingsFault Layer := do
  return (← ofPrefixed commonPrefix env) ++ (← ofPrefixed variablePrefix env)

/-- The layer that a settings document forms. -/
def ofSettings (document : Value) : Except SettingsFault Layer :=
  match document with
  | .map entries => entries.mapM fun (key, v) => do
    return (key.plain, ← (convert v).mapError .conversion)
  | v => if v.isEmpty then .ok [] else .error (.notMapping v.kind)

/-- The document in a settings file, in the format that its name ends in. A file of another
format, or a directory, holds none. -/
def settingsDocument (files : Tree) (path : Path) : Except SettingsFault Value := do
  if files.find? path == some .directory then return .null
  if path.endsWith [".yaml", ".yml"] then
    let text ← (files.read path).mapError .file
    (Yaml.read .v12 text).mapError .yaml
  else if path.endsWith [".toml", ".tml"] then
    let text := Toml.unifyBreaks (← (files.readExact path).mapError .file)
    (Toml.read text).mapError (.toml text)
  else if path.endsWith [".json"] then
    let text := String.ofList (← (files.read path).mapError .file)
    (Json.read text).mapError (.json text)
  else return .null

/-- Reads a settings file. -/
def readSettings (files : Tree) (path : Path) : Except SettingsFault Layer := do
  if !(← (files.has path).mapError .file) then throw (.absent path)
  ofSettings (← settingsDocument files path)

/-- The options of a run: explicit ones, else those of the environment and the settings file. -/
def RunOptions.or (explicit fallback : RunOptions) : RunOptions where
  connectionUri := explicit.connectionUri.or fallback.connectionUri
  connectionSecretId := explicit.connectionSecretId.or fallback.connectionSecretId
  jobSpecUri := explicit.jobSpecUri.or fallback.jobSpecUri

/-- Puts the layers of run options together. -/
def RunOptions.assemble (files : Tree) (env : List (String × String)) (settings : Option Path)
    (explicit : RunOptions) : Except SettingsFault RunOptions := do
  let file ← match settings with
    | some path => readSettings files path
    | none => pure []
  let ofEnv ← ofVariables env
  return explicit.or (Layer.options (file ++ ofEnv))

end GraphImport.Options
