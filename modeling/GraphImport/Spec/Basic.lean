import GraphImport.Document.Value
import GraphImport.Spec.Vocabulary
/-!
# Job specs

A job spec lists the sources that are read, the targets that are written and the actions that
run beside them. A target is a node type, an edge type or a query of its own; its mappings say
which field or constant feeds which property, label, key or relationship type.
-/
namespace GraphImport.Spec

open Document (Value)

structure Source where
  name : String := ""
  query : Option String := none
deriving DecidableEq, Repr, Inhabited

structure Mapping where
  name : String
  field : Option String := none
  constant : Option String := none
  fragment : FragmentType
  role : RoleType := .property
  type : Option PropertyType := none
  indexed : Bool := false
  unique : Bool := false
  mandatory : Bool := false
deriving DecidableEq, Repr, Inhabited

structure Aggregation where
  field : Option String := none
  expression : String := ""
deriving DecidableEq, Repr, Inhabited

/-- Changes made to the rows of a source before they reach a target. A negative limit is none. -/
structure Transform where
  sql : Option String := none
  group : Bool := false
  aggregations : List Aggregation := []
  orderBy : Option String := none
  filter : Option String := none
  limit : Int := -1
deriving DecidableEq, Repr, Inhabited

structure Target where
  name : String := ""
  active : Bool := true
  type : TargetType
  source : String := ""
  customQuery : Option String := none
  mappings : List Mapping := []
  transform : Transform := {}
  saveMode : SaveMode := .append
  edgeNodesMatchMode : EdgeNodesMatchMode := .matching
deriving DecidableEq, Repr, Inhabited

structure Action where
  name : String := ""
  type : ActionType
  options : List (String × Value) := []
  executeAfter : Option ActionExecuteAfter := none
  executeAfterName : Option String := none
deriving Inhabited

structure JobSpec where
  sources : List Source := []
  targets : List Target := []
  actions : List Action := []
deriving Inhabited

/-- A transform that changes nothing. -/
def Transform.isDefault (t : Transform) : Bool :=
  t == {}

/-- The first source of a name. -/
def JobSpec.source? (spec : JobSpec) (name : String) : Option Source :=
  spec.sources.find? fun source => source.name == name

def JobSpec.activeTargets (spec : JobSpec) : List Target :=
  spec.targets.filter fun target => target.active

/-- The same spec with the types of its targets replaced, one word per target in order. -/
def JobSpec.retyped (spec : JobSpec) (types : List String) : JobSpec :=
  { spec with
    targets := spec.targets.zipWith (fun target name => { target with type := .named name }) types }

end GraphImport.Spec
