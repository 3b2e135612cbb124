import GraphImport.Rules.Problem
/-!
# Cardinality of properties

A property of a target is fed by one field and has at most one type. A feed collects, without
repetition and in order of first occurrence, the fields and the types of all key and property
mappings of one name; a quoted constant counts as a field. A reader of a feed's problems looks
at the fields first and at the types when it is asked again, each time at the feed of the moment.
-/
namespace GraphImport.Rules

open Spec

/-- Adds an entry at the end unless it is there already. -/
def insertNew {α : Type} [BEq α] (entries : List α) (entry : α) : List α :=
  if entries.contains entry then entries else entries ++ [entry]

/-- The fields and types that feed one property of one target. -/
structure Feed where
  target : String
  property : String
  fields : List String := []
  types : List PropertyType := []
deriving DecidableEq, Repr

/-- Whether mappings of a role feed properties. -/
def feedsProperty : RoleType → Bool
  | .key | .property => true
  | .label | .type => false

/-- What a mapping enters among the fields: its field, or else its constant in quotes. -/
def enteredField? (m : Mapping) : Option String :=
  m.field.orElse fun _ => m.constant.map fun c => s!"'{c}'"

namespace Feed

def add (feed : Feed) (m : Mapping) : Feed :=
  if feedsProperty m.role then
    { feed with
      fields := (enteredField? m).elim feed.fields (insertNew feed.fields)
      types := m.type.elim feed.types (insertNew feed.types) }
  else feed

def fieldProblem? (feed : Feed) : Option Problem :=
  if feed.fields.length > 1 then some (.tooManyFields feed.property feed.target feed.fields)
  else none

def typeProblem? (feed : Feed) : Option Problem :=
  if feed.types.length > 1 then some (.tooManyTypes feed.property feed.target feed.types)
  else none

/-- All problems of a feed as it stands. -/
def problems (feed : Feed) : List Problem :=
  feed.fieldProblem?.toList ++ feed.typeProblem?.toList

end Feed

/-- How far a reader of a feed's problems has come. -/
inductive Cursor
  | start
  | afterFields
  | done
deriving DecidableEq, Repr

/-- The next problem a reader meets, and how far it has come then. -/
def Feed.next (feed : Feed) : Cursor → Option Problem × Cursor
  | .start => match feed.fieldProblem? with
    | some problem => (some problem, .afterFields)
    | none => types
  | .afterFields => types
  | .done => (none, .done)
where types := (feed.typeProblem?, .done)

/-- A feed under review, with readers by name. -/
structure Review where
  feed : Feed
  readers : List (String × Cursor) := []
deriving Repr

namespace Review

def add (review : Review) (m : Mapping) : Review :=
  { review with feed := review.feed.add m }

/-- Puts a reader under a name, in place of one that had it. -/
def setReader (review : Review) (id : String) (cursor : Cursor) : Review :=
  { review with readers := (id, cursor) :: review.readers.filter fun (other, _) => other != id }

def start (review : Review) (id : String) : Review :=
  review.setReader id .start

/-- Asks a reader for its next problem; an unknown reader has none. -/
def next (review : Review) (id : String) : Option Problem × Review :=
  match review.readers.lookup id with
  | none => (none, review)
  | some cursor =>
    let (problem, cursor) := review.feed.next cursor
    (problem, review.setReader id cursor)

end Review

/-- Adds a mapping to the feed of its name, or to a new feed at the end. -/
def addToFeeds (target : String) (feeds : List Feed) (m : Mapping) : List Feed :=
  if feeds.any fun feed => feed.property == m.name then
    feeds.map fun feed => if feed.property == m.name then feed.add m else feed
  else feeds ++ [({ target, property := m.name } : Feed).add m]

/-- The feeds of a target, one for each mapping name in order of first occurrence. -/
def feedsOf (target : Target) : List Feed :=
  target.mappings.foldl (addToFeeds target.name) []

end GraphImport.Rules
