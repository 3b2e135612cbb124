import GraphImport.Options.Secret
import GraphImport.Rules.Examination
import GraphImport.Spec.Reader
/-!
# Run options

A run connects to the graph by an address or by a secret that holds one, and reads its job spec
from a location. Empty options count as not given. A whole run has the problems of its options
followed by those of its job spec.
-/
namespace GraphImport.Options

open Document (Value)

structure RunOptions where
  connectionUri : Option String := none
  connectionSecretId : Option String := none
  jobSpecUri : Option String := none
deriving DecidableEq, Repr, Inhabited

open Spec.Reader in
def RunOptions.read : Spec.Reader RunOptions := model "RunOptions" fun e =>
  RunOptions.mk <$> withDefault "connection_uri" (nullable text) none e
    <*> withDefault "connection_secret_id" (nullable text) none e
    <*> withDefault "job_spec_uri" (nullable text) none e

def RunOptions.toDocument (o : RunOptions) : Value :=
  .record [
    ("connection_uri", .ofText? o.connectionUri),
    ("connection_secret_id", .ofText? o.connectionSecretId),
    ("job_spec_uri", .ofText? o.jobSpecUri)]

inductive Problem
  | noConnection
  | twoConnections
  | malformedSecret
  | noJobSpec
deriving DecidableEq, Repr

def Problem.message : Problem → String
  | .noConnection => "Neither Neo4j connection URI nor Neo4j connection secret were provided."
  | .twoConnections =>
    "Both Neo4j connection URI and Neo4j connection secret were provided: only one must be set."
  | .malformedSecret =>
    "Neo4j connection secret must be in the form " ++
      "projects/\x7bproject\x7d/secrets/\x7bsecret\x7d/versions/\x7bsecret_version\x7d"
  | .noJobSpec => "Job spec URI not provided."

/-- Text that is present and not empty. -/
def given? : Option String → Option String
  | some s => if s == "" then none else some s
  | none => none

def found (condition : Bool) (p : Problem) : List Problem :=
  if condition then [p] else []

def RunOptions.problems (o : RunOptions) : List Problem :=
  let uri := given? o.connectionUri
  let secret := given? o.connectionSecretId
  found (uri.isNone && secret.isNone) .noConnection ++
    found (uri.isSome && secret.isSome) .twoConnections ++
    found (secret.any fun s => (SecretVersion.parse? s).isNone) .malformedSecret ++
    found (given? o.jobSpecUri).isNone .noJobSpec

/-- The messages of a run: those of its options, then those of its job spec if there is one. -/
def runMessages (o : RunOptions) (spec? : Option Spec.JobSpec) :
    Except Rules.UnknownTargetType (List String) :=
  let own := o.problems.map Problem.message
  match spec? with
  | none => .ok own
  | some spec => match Rules.problemsOf spec with
    | .ok problems => .ok (own ++ problems.map Rules.Problem.message)
    | .error e => .error e

end GraphImport.Options
