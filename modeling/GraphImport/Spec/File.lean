import GraphImport.Files.Tree
import GraphImport.Spec.Reader
import GraphImport.Yaml.Reader
/-!
# Job spec files

A job spec is read from a YAML file; JSON is YAML too. A run names its job spec by a location,
and what keeps it from loading is put into a notice for display, unless the file itself cannot
be read or a scalar in it has no value.
-/
namespace GraphImport.Spec

open Files (FileFault Homes Path Tree)

inductive LoadFault
  | file (path : Path) (fault : FileFault)
  | yaml (fault : Yaml.Fault)
  | spec (error : SpecError)

def LoadFault.message : LoadFault → String
  | .file path .absent => s!"Job spec not found: {path.text}"
  | .file _ fault => fault.message
  | .yaml fault => fault.message
  | .spec error => error.message

/-- Reads the job spec in a file. -/
def load (files : Tree) (path : Path) : Except LoadFault JobSpec := do
  let text ← (files.read path).mapError (.file path)
  let raw ← (Yaml.read .v11 text).mapError .yaml
  (JobSpec.ofDocument path.text raw).mapError .spec

/-- A message for display, perhaps with details and a hint. -/
structure Notice where
  title : String
  message : String
  details : Option (List String) := none
  hint : Option String := none
deriving DecidableEq, Repr

/-- Why the job spec of a run cannot be loaded. -/
inductive RunFault
  | notice (n : Notice)
  | unknownHome
  | load (fault : LoadFault)

def RunFault.message : RunFault → String
  | .notice n => n.message
  | .unknownHome => "Could not determine home directory."
  | .load fault => fault.message

/-- Puts a fault into a notice, if it is one of the job spec and not of its surroundings. -/
def LoadFault.forRun (location : String) (path : Path) : LoadFault → RunFault
  | .file _ .absent => .notice {
      title := "File Not Found"
      message := s!"Job spec does not exist: {location}"
      hint := some "Check the path and ensure the file exists." }
  | .yaml fault =>
    if fault.isOfFormat then .notice {
      title := "Job Spec Syntax Error"
      message := s!"Failed to parse {path.name}"
      details := some [fault.message]
      hint := some
        "Check for unclosed brackets, incorrect indentation, or invalid characters." }
    else .load (.yaml fault)
  | .spec (.flawed flaws) => .notice {
      title := "Job Spec Structure Invalid"
      message := s!"Invalid job spec in {path.name}"
      details := some (flaws.map Flaw.message)
      hint := some "Check field names, types, and allowed values." }
  | .spec error => .notice { title := "Job Spec Structure Invalid", message := error.message }
  | fault => .load fault

/-- Reads the job spec at the location that a run names. -/
def loadForRun (homes : Homes) (files : Tree) (location : String) : Except RunFault JobSpec :=
  match (Path.ofText location).expandHome? homes with
  | none => .error .unknownHome
  | some path => (load files path).mapError (LoadFault.forRun location path)

end GraphImport.Spec
