import GraphImport.Rules.Cardinality
import GraphImport.Rules.OrderBy
import GraphImport.Spec.Lookup
/-!
# Examining a job spec

The rules walk once through sources, active targets and actions, and then through the actions
again for what they wait for. On the way they find problems and make notes for the log. A target
of a type without rules ends the walk.
-/
namespace GraphImport.Rules

open Spec

/-- A remark for the log. -/
inductive Note
  | checkingOrderBy (source : String)
  | invalidNodeTarget (target : Target)
  | validated (sources targets actions problems : Nat)
deriving DecidableEq, Repr

inductive Finding
  | problem (p : Problem)
  | note (n : Note)
deriving DecidableEq, Repr

/-- A problem found under a condition. -/
def found (condition : Bool) (p : Problem) : List Finding :=
  if condition then [.problem p] else []

/-- Whether the first value a target carries for a fragment and role is blank. -/
def lacks (t : Target) (fragment : FragmentType) (role : RoleType) : Bool :=
  Text.isBlank (t.firstCarried fragment [role])

/-- What a name shows, given the names seen before it. -/
def nameFindings (item : NamedItem) (seen : List String) (name : String) : List Finding :=
  found (Text.isBlank name) (.unnamed item) ++
    found (seen.contains name) (.duplicateName item name)

def sourceFindings (seen : List String) : List Source → List Finding
  | [] => []
  | s :: rest =>
    nameFindings .source seen s.name ++
      (if Text.isBlank? s.query then [] else [.note (.checkingOrderBy s.name)]) ++
      found (sorts s.query) (.sortedSource s.name) ++
      sourceFindings (s.name :: seen) rest

/-- What the reference to a source shows, whatever the type of the target. -/
def referenceFindings (spec : JobSpec) (t : Target) : List Finding :=
  found (Text.isBlank t.source) .noSource ++
    found (t.source != "" && (spec.source? t.source).isNone) (.undefinedSource t.source) ++
    found (sorts t.transform.sql) (.sortedTarget t.name)

def nodeFindings (t : Target) : List Finding :=
  t.mappings.flatMap (fun m =>
    found (m.fragment != .node) (.nodeFragment m.fragment m.name)) ++
    (if lacks t .node .label then [.note (.invalidNodeTarget t), .problem (.noLabel t.name)]
    else []) ++
    found (lacks t .node .key) (.noKey t.name)

def isEndpoint : FragmentType → Bool
  | .source | .target => true
  | .node | .rel => false

/-- Endpoints of an edge are found by their keys and told apart by their labels. -/
def fitsEndpoint : RoleType → Bool
  | .key | .label => true
  | .property | .type => false

def edgeFindings (t : Target) : List Finding :=
  t.mappings.flatMap (fun m =>
    found (m.fragment == .node) (.edgeFragment m.fragment m.name) ++
      found (isEndpoint m.fragment && !fitsEndpoint m.role) (.endpointRole m.role m.fragment)) ++
    found (lacks t .source .key) (.noEdgePart .sourceKey t.name) ++
    found (lacks t .target .key) (.noEdgePart .targetKey t.name) ++
    found (lacks t .rel .type) (.noEdgePart .relType t.name) ++
    found (t.saveMode == .merge && t.edgeNodesMatchMode == .create) (.incompatibleModes t.name)

def queryFindings (t : Target) : List Finding :=
  found (Text.isBlank? t.customQuery) (.noQuery t.name) ++
    found (!t.mappings.isEmpty) (.queryWithMapping t.name) ++
    found (!t.transform.isDefault) (.queryWithTransform t.name)

def aggregationFindings (t : Target) : List Finding :=
  t.transform.aggregations.flatMap fun a =>
    found (!t.mapsField a.field) (.unmappedAggregation a.field)

def cardinalityFindings (t : Target) : List Finding :=
  (feedsOf t).flatMap fun feed => feed.problems.map .problem

/-- What the rules for the type of a target find; none when there are no rules for it. -/
def typeFindings? (t : Target) : Option (List Finding) :=
  match t.type with
  | .node => some (nodeFindings t ++ aggregationFindings t ++ cardinalityFindings t)
  | .edge => some (edgeFindings t ++ aggregationFindings t ++ cardinalityFindings t)
  | .customQuery => some (queryFindings t ++ aggregationFindings t)
  | .unmodelled _ => none

/-- Walks through the active targets. The second part is the type that ended the walk. -/
def targetFindings (spec : JobSpec) (seen : List String) :
    List Target → List Finding × Option TargetType
  | [] => ([], none)
  | t :: rest =>
    if t.active then
      let here := nameFindings .target seen t.name ++ referenceFindings spec t
      match typeFindings? t with
      | none => (here, some t.type)
      | some ofType =>
        let (later, stop) := targetFindings spec (t.name :: seen) rest
        (here ++ ofType ++ later, stop)
    else targetFindings spec seen rest

def actionFindings (seen : List String) : List Action → List Finding
  | [] => []
  | a :: rest =>
    nameFindings .action seen a.name ++
      found (!a.options.any fun (key, _) => key == requiredOption a.type)
        (.missingOption a.type a.name) ++
      actionFindings (a.name :: seen) rest

/-- Whether an active target of a type has a name. -/
def hasActiveTarget (spec : JobSpec) (type : TargetType) (name : String) : Bool :=
  spec.activeTargets.any fun t => t.name == name && t.type == type

/-- Whether the item exists that an action waits for. -/
def resolves (spec : JobSpec) (name : String) : ActionExecuteAfter → Bool
  | .source => (spec.source? name).isSome
  | .action => spec.actions.any fun a => a.name == name
  | .node => hasActiveTarget spec .node name
  | .edge => hasActiveTarget spec .edge name
  | .customQuery => hasActiveTarget spec .customQuery name
  | _ => true

def dependencyFindings (spec : JobSpec) (a : Action) : List Finding :=
  match a.executeAfter with
  | none => []
  | some kind =>
    if !kind.namesSingleItem then []
    else match Spec.filled? a.executeAfterName with
      | none => [.problem (.dependencyUnnamed a.name kind)]
      | some name => found (!resolves spec name kind) (.dependencyUnknown a.name kind name)

def problemsIn (findings : List Finding) : List Problem :=
  findings.filterMap fun
    | .problem p => some p
    | .note _ => none

def notesIn (findings : List Finding) : List Note :=
  findings.filterMap fun
    | .note n => some n
    | .problem _ => none

@[simp] theorem problemsIn_nil : problemsIn [] = [] := rfl

@[simp] theorem problemsIn_problem (p : Problem) (rest : List Finding) :
    problemsIn (.problem p :: rest) = p :: problemsIn rest := rfl

@[simp] theorem problemsIn_note (n : Note) (rest : List Finding) :
    problemsIn (.note n :: rest) = problemsIn rest := rfl

@[simp] theorem problemsIn_append (a b : List Finding) :
    problemsIn (a ++ b) = problemsIn a ++ problemsIn b :=
  List.filterMap_append

@[simp] theorem problemsIn_found (condition : Bool) (p : Problem) :
    problemsIn (found condition p) = if condition then [p] else [] := by
  cases condition <;> rfl

@[simp] theorem problemsIn_flatMap {α : Type} (items : List α) (say : α → List Finding) :
    problemsIn (items.flatMap say) = items.flatMap fun item => problemsIn (say item) := by
  induction items with
  | nil => rfl
  | cons item rest ih => simp only [List.flatMap_cons, problemsIn_append, ih]

@[simp] theorem problemsIn_map_problem (problems : List Problem) :
    problemsIn (problems.map .problem) = problems := by
  induction problems with
  | nil => rfl
  | cons p rest ih => simp only [List.map_cons, problemsIn_problem, ih]

/-- What a whole walk yields: all findings, or those up to a target of a type without rules. -/
structure Examination where
  findings : List Finding
  stoppedAt : Option TargetType

def examine (spec : JobSpec) : Examination :=
  let sources := sourceFindings [] spec.sources
  match targetFindings spec [] spec.targets with
  | (targets, some type) => { findings := sources ++ targets, stoppedAt := some type }
  | (targets, none) =>
    let findings := sources ++ targets ++
      found (!spec.targets.any fun t => t.active) .noActiveTarget ++
      actionFindings [] spec.actions ++ spec.actions.flatMap (dependencyFindings spec)
    let summary := Note.validated spec.sources.length spec.targets.length spec.actions.length
      (problemsIn findings).length
    { findings := findings ++ [.note summary], stoppedAt := none }

/-- A target type the rules do not know. -/
structure UnknownTargetType where
  type : TargetType
deriving DecidableEq, Repr

def UnknownTargetType.message (e : UnknownTargetType) : String :=
  s!"Unknown target type: {word e.type}"

/-- The problems of a job spec in the order of the walk. -/
def problemsOf (spec : JobSpec) : Except UnknownTargetType (List Problem) :=
  let walk := examine spec
  match walk.stoppedAt with
  | some type => .error { type }
  | none => .ok (problemsIn walk.findings)

/-- The notes made on the walk. -/
def notesOf (spec : JobSpec) : List Note :=
  notesIn (examine spec).findings

end GraphImport.Rules
