import GraphImport.Spec.Basic
/-!
# Problems of a job spec

Everything the rules can find wrong with a job spec of the right shape, each with the names it
concerns and the message that reports it.
-/
namespace GraphImport.Rules

open Spec

/-- The parts of a job spec that bear names. -/
inductive NamedItem
  | source
  | target
  | action
deriving DecidableEq, Repr

/-- The three ends an edge target needs. -/
inductive EdgePart
  | sourceKey
  | targetKey
  | relType
deriving DecidableEq, Repr

inductive Problem
  | unnamed (item : NamedItem)
  | duplicateName (item : NamedItem) (name : String)
  | sortedSource (source : String)
  | sortedTarget (target : String)
  | noSource
  | undefinedSource (source : String)
  | nodeFragment (fragment : FragmentType) (mapping : String)
  | edgeFragment (fragment : FragmentType) (mapping : String)
  | endpointRole (role : RoleType) (fragment : FragmentType)
  | noLabel (target : String)
  | noKey (target : String)
  | noEdgePart (part : EdgePart) (target : String)
  | incompatibleModes (target : String)
  | noQuery (target : String)
  | queryWithMapping (target : String)
  | queryWithTransform (target : String)
  | unmappedAggregation (field : Option String)
  | tooManyFields (property target : String) (fields : List String)
  | tooManyTypes (property target : String) (types : List PropertyType)
  | noActiveTarget
  | missingOption (type : ActionType) (action : String)
  | dependencyUnnamed (action : String) (kind : ActionExecuteAfter)
  | dependencyUnknown (action : String) (kind : ActionExecuteAfter) (name : String)
deriving DecidableEq, Repr

/-- The option an action of a type needs. -/
def requiredOption : ActionType → String
  | .cypher => "cypher"
  | .httpGet | .httpPost => "url"
  | .bigquery => "sql"

/-- How messages speak of an action type. -/
def actionStyle : ActionType → String
  | .cypher => "cypher-style"
  | .httpGet | .httpPost => "http-style"
  | .bigquery => "query-style"

def NamedItem.unnamedMessage : NamedItem → String
  | .source => "Source is not named"
  | .target => "Targets must include a 'name' attribute."
  | .action => "Action is not named"

def NamedItem.word : NamedItem → String
  | .source => "source"
  | .target => "target"
  | .action => "action"

def EdgePart.phrase : EdgePart → String
  | .sourceKey => "source key field for relationship"
  | .targetKey => "target key field for relationship"
  | .relType => "relationship type"

def Problem.message : Problem → String
  | .unnamed item => item.unnamedMessage
  | .duplicateName item name => s!"Duplicate {item.word} name: {name}"
  | .sortedSource source => s!"Source {source} SQL contains ORDER BY which is not supported"
  | .sortedTarget target => s!"Target {target} SQL contains ORDER BY which is not supported"
  | .noSource => "Targets must include a 'source' attribute that maps to a 'source.name'."
  | .undefinedSource source => s!"Target source not defined: {source}"
  | .nodeFragment fragment mapping =>
    s!"Invalid fragment type {word fragment} for node mapping: {mapping}"
  | .edgeFragment fragment mapping =>
    s!"Invalid fragment type {word fragment} for relationship mapping: {mapping}"
  | .endpointRole role fragment => s!"Invalid role {word role} on relationship: {word fragment}"
  | .noLabel target => s!"Missing label in node: {target}"
  | .noKey target => s!"Missing key field in node: {target}"
  | .noEdgePart part target => s!"Could not find {part.phrase}: {target}"
  | .incompatibleModes target =>
    s!"Edge target {target} uses incompatible save modes: either change the target's save mode" ++
      " to create or the edge node mode to match or merge"
  | .noQuery target => s!"Custom target must define a query: {target}"
  | .queryWithMapping target => s!"Custom target must not define any mapping: {target}"
  | .queryWithTransform target => s!"Custom target must not define any transform: {target}"
  | .unmappedAggregation field =>
    "Aggregation for field " ++ field.getD "None" ++ " is unmapped."
  | .tooManyFields property target fields =>
    s!"Property {property} of target {target} is mapped to too many source fields: " ++
      ", ".intercalate fields
  | .tooManyTypes property target types =>
    s!"Property {property} of target {target} is mapped to too many types: " ++
      ", ".intercalate (types.map word)
  | .noActiveTarget => "The job spec must define at least 1 active target, none found"
  | .missingOption type action =>
    s!"Parameter '{requiredOption type}' is required for {actionStyle type} action: {action}"
  | .dependencyUnnamed action kind =>
    s!"Action {action} must name the {word kind} it executes after"
  | .dependencyUnknown action kind name =>
    s!"Action {action} depends on unknown {word kind}: {name}"

end GraphImport.Rules
