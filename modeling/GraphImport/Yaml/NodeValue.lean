import GraphImport.Yaml.Node
import GraphImport.Yaml.ScalarValue
/-!
# Values of nodes

What a node means under its tag. A document is gone through level by level, and the fault that
counts is the first one on the shallowest level, so faults are collected with their depth.
-/
namespace GraphImport.Yaml

open Document (Value)

/-- A value, and the fault that keeps it from being one, with its depth. -/
structure Found (α : Type) where
  value : α
  fault : Option (Nat × Fault) := none

namespace Found

/-- The fault that counts of two, of which the first comes earlier in the document. -/
def first? : Option (Nat × Fault) → Option (Nat × Fault) → Option (Nat × Fault)
  | none, b => b
  | a, none => a
  | some a, some b => if b.1 < a.1 then some b else some a

def refuse {α : Type} [Inhabited α] (fault : Fault) : Found α :=
  { value := default, fault := some (0, fault) }

def ofExcept {α : Type} [Inhabited α] : Except Fault α → Found α
  | .ok value => { value }
  | .error fault => refuse fault

def map {α β : Type} (f : α → β) (a : Found α) : Found β :=
  { value := f a.value, fault := a.fault }

def both {α β : Type} (a : Found α) (b : Found β) : Found (α × β) :=
  { value := (a.value, b.value), fault := first? a.fault b.fault }

/-- Adds a fault that comes later on the same level. -/
def orFault {α : Type} (a : Found α) (fault : Fault) : Found α :=
  { a with fault := first? a.fault (some (0, fault)) }

def all {α : Type} : List (Found α) → Found (List α)
  | [] => { value := [] }
  | a :: rest => (a.both (all rest)).map fun (value, values) => value :: values

/-- Moves a fault one level down. -/
def deeper {α : Type} (a : Found α) : Found α :=
  { a with fault := a.fault.map fun (depth, fault) => (depth + 1, fault) }

def toExcept {α : Type} (a : Found α) : Except Fault α :=
  match a.fault with
  | some (_, fault) => .error fault
  | none => .ok a.value

end Found

namespace Node

def tag : Node → String
  | .scalar tag _ | .sequence tag _ | .mapping tag _ => tag
  | .cycle _ => ""

def hasCoreTag (node : Node) (name : String) : Bool :=
  node.tag == coreTag name

/-- Whether a node's value can be no key, by its tag. -/
def isCollection (node : Node) : Bool :=
  match node with
  | .cycle _ => true
  | _ => ["seq", "map", "set", "omap", "pairs"].any node.hasCoreTag

def refuseKind {α : Type} [Inhabited α] (expected found : String) : Found α :=
  .refuse (.node (.kindExpected expected found))

mutual

/-- The text of a node: its own, or of a mapping what stands under the key `=`. -/
def content? : Node → Option Content
  | .scalar _ content => some content
  | .mapping _ entries => contentIn? entries
  | _ => none

def contentIn? : List (Node × Node) → Option Content
  | [] => none
  | (key, value) :: rest => if key.hasCoreTag "value" then value.content? else contentIn? rest

end

/-- The kind of the node in which a search for text ends. -/
def textlessKind : Node → String
  | .sequence .. | .cycle true => "sequence"
  | _ => "mapping"

/-- The value of a node under a tag of text. -/
def textValue (version : Version) (type : String) (node : Node) : Found Value :=
  match node.content? with
  | none => refuseKind "scalar" node.textlessKind
  | some content => match scalarValue? version type content with
    | some value => .ofExcept value
    | none => .refuse (.node (.unknownTag node.tag))

def textTypes : List String :=
  ["null", "bool", "int", "float", "binary", "timestamp", "str"]

/-- The value of a node under a tag that is none of a collection. -/
def otherValue (version : Version) (node : Node) : Found Value :=
  match coreName? node.tag with
  | some type =>
    if textTypes.contains type then textValue version type node
    else .refuse (.node (.unknownTag node.tag))
  | none => .refuse (.node (.unknownTag node.tag))

/-- A key and its value. -/
abbrev Entry := Found (Value × Value)

/-- The value of a key. The text `=` is a key like any other. -/
def asKey (version : Version) (key : Node) (value : Found Value) : Found Value :=
  if key.hasCoreTag "value" then textValue version "str" key
  else if key.isCollection then value.orFault (.node .unhashableKey)
  else value

/-- The first entry whose key an earlier one has too. -/
def repeated? : List (Value × Value) → List (Value × Value) → Option NodeFault
  | _, [] => none
  | known, (key, value) :: rest =>
    match known.find? fun (k, _) => k.sameKey key with
    | some (_, first) => some (.repeatedKey key.plain value.plain first.plain)
    | none => repeated? ((key, value) :: known) rest

/-- A mapping of entries, once the mappings merged into it are known. The newer version of the
format wants each key once. -/
def ofMerged (version : Version) (entries : Except NodeFault (List Entry × List Entry)) :
    Found (List (Value × Value)) :=
  match entries with
  | .error fault => .refuse (.node fault)
  | .ok (merged, own) =>
    let found := Found.all (merged ++ own)
    let known := found.map Value.ofEntries
    match version, merged, repeated? [] found.value with
    | .v12, [], some fault => known.orFault (.node fault)
    | _, _, _ => known

mutual

/-- The value of a node under its tag. -/
def value (version : Version) : Node → Found Value
  | .cycle isSequence => { value := .cycle isSequence }
  | .scalar tag content =>
    match coreName? tag with
    | some "seq" => (refuseKind "sequence" "scalar").deeper
    | some "map" | some "set" => (refuseKind "mapping" "scalar").deeper
    | some "omap" | some "pairs" => (Found.refuse (.node (.mapNodeExpected "scalar"))).deeper
    | _ => otherValue version (.scalar tag content)
  | .sequence tag items =>
    match coreName? tag with
    | some "seq" => ((Found.all (values version items)).map Value.list).deeper
    | some "map" | some "set" => (refuseKind "mapping" "sequence").deeper
    | some "omap" | some "pairs" => ((Found.all (pairs version items)).map Value.list).deeper
    | _ => otherValue version (.sequence tag items)
  | .mapping tag entries =>
    match coreName? tag with
    | some "seq" => (refuseKind "sequence" "mapping").deeper
    | some "map" => ((ofMerged version (entriesOf version entries)).map Value.map).deeper
    | some "set" =>
      ((ofMerged version (entriesOf version entries)).map fun known => .set (known.map (·.1))).deeper
    | some "omap" | some "pairs" => (Found.refuse (.node (.mapNodeExpected "mapping"))).deeper
    | _ => otherValue version (.mapping tag entries)

def values (version : Version) : List Node → List (Found Value)
  | [] => []
  | item :: rest => item.value version :: values version rest

/-- The items of an ordered map: mappings of one entry. -/
def pairs (version : Version) : List Node → List (Found Value)
  | [] => []
  | item :: rest => pair version item :: pairs version rest

def pair (version : Version) : Node → Found Value
  | .mapping _ entries => match entries with
    | [(key, item)] =>
      ((key.value version).both (item.value version)).map fun (k, v) => .list [k, v]
    | _ => .refuse (.node (.singlePairExpected entries.length))
  | .cycle false => { value := .cycle false }
  | .cycle true => .refuse (.node (.pairExpected "sequence"))
  | .sequence .. => .refuse (.node (.pairExpected "sequence"))
  | .scalar .. => .refuse (.node (.pairExpected "scalar"))

/-- The entries merged into a mapping, and its own. -/
def entriesOf (version : Version) :
    List (Node × Node) → Except NodeFault (List Entry × List Entry)
  | [] => .ok ([], [])
  | (key, item) :: rest =>
    if key.hasCoreTag "merge" then do
      let here ← mergedFrom version item
      let (merged, own) ← entriesOf version rest
      return (here ++ merged, own)
    else do
      let (merged, own) ← entriesOf version rest
      return (merged, (asKey version key (key.value version)).both (item.value version) :: own)

/-- The entries to merge from a mapping or from a list of mappings, in which the earlier win. -/
def mergedFrom (version : Version) : Node → Except NodeFault (List Entry)
  | .mapping _ entries => do
    let (merged, own) ← entriesOf version entries
    return merged ++ own
  | .sequence _ items => mergedFromItems version items
  | .cycle _ => .ok []
  | .scalar .. => .error (.mappingsToMergeExpected "scalar")

def mergedFromItems (version : Version) : List Node → Except NodeFault (List Entry)
  | [] => .ok []
  | item :: rest => do
    let here ← match item with
      | .mapping _ entries => do
        let (merged, own) ← entriesOf version entries
        pure (merged ++ own)
      | .cycle false => pure []
      | .cycle true | .sequence .. => .error (.mappingToMergeExpected "sequence")
      | .scalar .. => .error (.mappingToMergeExpected "scalar")
    return (← mergedFromItems version rest) ++ here

end

end Node
end GraphImport.Yaml
