import GraphImport.Text.Quoted
/-!
# Vocabularies

The closed sets of words a job spec is written in. Each word stands for one member, and a word
that is spelled differently, in case or by a blank, stands for none.
-/
namespace GraphImport.Spec

/-- A closed set of members, each written as one word. -/
class Vocabulary (α : Type) where
  /-- What messages call the set. -/
  title : String
  members : List α
  word : α → String

export Vocabulary (word)

variable {α : Type} [Vocabulary α]

def ofWord? (s : String) : Option α :=
  Vocabulary.members.find? fun member : α => word member == s

/-- All words in order, quoted, the last two joined by "or". -/
def wordList (words : List String) : String :=
  let quotedWords := words.map fun w => s!"'{w}'"
  match quotedWords.getLast? with
  | none => ""
  | some last =>
    if quotedWords.length == 1 then last
    else ", ".intercalate quotedWords.dropLast ++ " or " ++ last

/-- The name of a member, its word in capitals. -/
def memberName (member : α) : String :=
  (word member).map Char.toUpper

inductive FragmentType
  | node
  | source
  | target
  | rel
deriving DecidableEq, Repr, Inhabited

inductive RoleType
  | key
  | property
  | label
  | type
deriving DecidableEq, Repr, Inhabited

inductive PropertyType
  | string
  | integer
  | long
  | float
  | bigDecimal
  | boolean
  | bytes
  | date
  | time
  | localTime
  | datetime
  | localDatetime
  | duration
  | point
deriving DecidableEq, Repr, Inhabited

inductive SaveMode
  | append
  | merge
  | create
deriving DecidableEq, Repr, Inhabited

inductive EdgeNodesMatchMode
  | matching
  | merge
  | create
deriving DecidableEq, Repr, Inhabited

inductive ActionType
  | cypher
  | httpGet
  | httpPost
  | bigquery
deriving DecidableEq, Repr, Inhabited

/-- When an action runs: after a whole stage, or after one named item. -/
inductive ActionExecuteAfter
  | start
  | preloads
  | sources
  | nodes
  | edges
  | customQueries
  | loads
  | source
  | node
  | edge
  | customQuery
  | action
deriving DecidableEq, Repr, Inhabited

/-- What a target writes. Documents can only name the first three types; `unmodelled` is any
other word, for which there are no rules. -/
inductive TargetType
  | node
  | edge
  | customQuery
  | unmodelled (name : String)
deriving DecidableEq, Repr, Inhabited

instance : Vocabulary FragmentType where
  title := "FragmentType"
  members := [.node, .source, .target, .rel]
  word
    | .node => "node"
    | .source => "source"
    | .target => "target"
    | .rel => "rel"

instance : Vocabulary RoleType where
  title := "RoleType"
  members := [.key, .property, .label, .type]
  word
    | .key => "key"
    | .property => "property"
    | .label => "label"
    | .type => "type"

instance : Vocabulary PropertyType where
  title := "PropertyType"
  members := [.string, .integer, .long, .float, .bigDecimal, .boolean, .bytes, .date, .time,
    .localTime, .datetime, .localDatetime, .duration, .point]
  word
    | .string => "string"
    | .integer => "integer"
    | .long => "long"
    | .float => "float"
    | .bigDecimal => "big_decimal"
    | .boolean => "boolean"
    | .bytes => "bytes"
    | .date => "date"
    | .time => "time"
    | .localTime => "local_time"
    | .datetime => "datetime"
    | .localDatetime => "local_datetime"
    | .duration => "duration"
    | .point => "point"

instance : Vocabulary SaveMode where
  title := "SaveMode"
  members := [.append, .merge, .create]
  word
    | .append => "append"
    | .merge => "merge"
    | .create => "create"

instance : Vocabulary EdgeNodesMatchMode where
  title := "EdgeNodesMatchMode"
  members := [.matching, .merge, .create]
  word
    | .matching => "match"
    | .merge => "merge"
    | .create => "create"

instance : Vocabulary ActionType where
  title := "ActionType"
  members := [.cypher, .httpGet, .httpPost, .bigquery]
  word
    | .cypher => "cypher"
    | .httpGet => "http_get"
    | .httpPost => "http_post"
    | .bigquery => "bigquery"

instance : Vocabulary ActionExecuteAfter where
  title := "ActionExecuteAfter"
  members := [.start, .preloads, .sources, .nodes, .edges, .customQueries, .loads, .source, .node,
    .edge, .customQuery, .action]
  word
    | .start => "start"
    | .preloads => "preloads"
    | .sources => "sources"
    | .nodes => "nodes"
    | .edges => "edges"
    | .customQueries => "custom_queries"
    | .loads => "loads"
    | .source => "source"
    | .node => "node"
    | .edge => "edge"
    | .customQuery => "custom_query"
    | .action => "action"

instance : Vocabulary TargetType where
  title := "TargetType"
  members := [.node, .edge, .customQuery]
  word
    | .node => "node"
    | .edge => "edge"
    | .customQuery => "custom_query"
    | .unmodelled name => name

/-- The type a word names, whether there are rules for it or not. -/
def TargetType.named (name : String) : TargetType :=
  (ofWord? name).getD (.unmodelled name)

/-- Whether the moment is given by one named item instead of a whole stage. -/
def ActionExecuteAfter.namesSingleItem : ActionExecuteAfter → Bool
  | .source | .node | .edge | .customQuery | .action => true
  | _ => false

end GraphImport.Spec
