import GraphImport.Yaml.Lexer
import GraphImport.Yaml.Tag
/-!
# Nodes of a YAML document

Tokens form a tree of scalars, sequences and mappings. Every node has a tag, written or implied.
A node may have an anchor, and an alias stands for the node with its anchor, which must come
before it; inside that node the alias makes a cycle. A text holds at most one document.
-/
namespace GraphImport.Yaml

inductive Node
  | scalar (tag : String) (content : Content)
  | sequence (tag : String) (items : List Node)
  | mapping (tag : String) (entries : List (Node × Node))
  /-- A collection inside itself: a sequence, or else a mapping. -/
  | cycle (isSequence : Bool)
deriving Inhabited

namespace Node

/-- What messages call the kind of a node. -/
def kind : Node → String
  | .scalar .. => "scalar"
  | .sequence .. | .cycle true => "sequence"
  | .mapping .. | .cycle false => "mapping"

end Node

/-- What is still to be read, and what has been met so far. -/
structure Reading where
  version : Version
  tokens : List Token
  fault : Option Fault
  handles : List (String × String) := []
  /-- The nodes that have anchors; a collection that is still open counts as a cycle. -/
  anchors : List (String × Node) := []

abbrev Build (α : Type) := StateT Reading (Except Fault) α

namespace Build

/-- The next token. Where the tokens end, so does the text, or its fault comes to light. -/
def peek : Build Token := fun r =>
  match r.tokens, r.fault with
  | t :: _, _ => .ok (t, r)
  | [], some fault => .error fault
  | [], none => .ok (.streamEnd, r)

def skip : Build Unit :=
  modify fun r => { r with tokens := r.tokens.drop 1 }

/-- Passes the next token if it is the given one. -/
def skipIf (t : Token) : Build Bool := do
  if (← peek) == t then
    skip
    return true
  return false

def nextIsOneOf (ts : List Token) : Build Bool :=
  return ts.contains (← peek)

def failGrammar {α : Type} (fault : GrammarFault) : Build α :=
  throw (.grammar fault)

def failAnchor {α : Type} (fault : AnchorFault) : Build α :=
  throw (.anchor fault)

/-- The handles every document knows. -/
def defaultHandles : List (String × String) := [("!", "!"), ("!!", coreTag "")]

/-- Reads an anchor if one comes next. -/
def anchor? : Build (Option String) := do
  match ← peek with
  | .anchor name => do
    skip
    return some name
  | _ => return none

/-- Reads a tag if one comes next. -/
def tag? : Build (Option (Option String × String)) := do
  match ← peek with
  | .tag handle suffix => do
    skip
    return some (handle, suffix)
  | _ => return none

/-- The tag that a handle and a suffix stand for. -/
def expand (tag : Option String × String) : Build String := do
  match tag with
  | (none, suffix) => return suffix
  | (some handle, suffix) =>
    match (← get).handles.lookup handle with
    | some expansion => return expansion ++ suffix
    | none => failGrammar (.undefinedHandle handle)

/-- Reads the anchor and tag of a node, in either order. -/
def properties : Build (Option String × Option String) := do
  let (anchor, tag) ← match ← anchor? with
    | some name => do pure (some name, ← tag?)
    | none => do
      let tag ← tag?
      let anchor ← if tag.isSome then anchor? else pure none
      pure (anchor, tag)
  match tag with
  | some tag => return (anchor, some (← expand tag))
  | none => return (anchor, none)

def record (name : String) (node : Node) : Build Unit :=
  modify fun r => { r with anchors := (name, node) :: r.anchors }

/-- Takes up the anchor of a node that begins, in which an alias would make a cycle. -/
def openAnchor (anchor : Option String) (isSequence : Bool) : Build Unit := do
  match anchor with
  | none => return
  | some name =>
    if ((← get).anchors.lookup name).isSome then failAnchor .repeatedAnchor
    record name (.cycle isSequence)

/-- Records a finished node under its anchor. -/
def finish (anchor : Option String) (node : Node) : Build Node := do
  match anchor with
  | none => return node
  | some name => do
    record name node
    return node

/-- The node that an alias stands for. -/
def aliased (name : String) : Build Node := do
  match (← get).anchors.lookup name with
  | some node => return node
  | none => failAnchor (.undefinedAlias name)

/-- The tag of a collection: none and the lone mark stand for the standard one. -/
def collectionTag (name : String) : Option String → String
  | none | some "!" => coreTag name
  | some tag => tag

/-- The tag of a scalar. The lone mark makes any text count as plain. -/
def scalarTag (tag : Option String) (content : Content) (plain : Bool) : Build String := do
  let version := (← get).version
  match tag with
  | some "!" => return coreTag (plainType version content.chars)
  | some tag => return tag
  | none => return coreTag (if plain then plainType version content.chars else "str")

/-- The scalar that is left out where a node could be. -/
def omitted : Node :=
  .scalar (coreTag "null") {}

mutual

/-- Reads a node. Block collections start nodes only in block context, and a mapping may hold a
sequence that is not indented. Every step into a node or on to a further item uses up fuel. -/
def node (block indentless : Bool) : Nat → Build Node
  | 0 => failGrammar (.contentExpected "")
  | fuel + 1 => do
    match ← peek with
    | .alias name =>
      skip
      aliased name
    | _ =>
      let (anchor, tag) ← properties
      match ← peek with
      | .blockEntry =>
        if indentless then
          openAnchor anchor true
          let items ← looseItems fuel
          finish anchor (.sequence (collectionTag "seq" tag) items)
        else bare anchor tag .blockEntry
      | .scalar content plain =>
        openAnchor anchor false
        skip
        finish anchor (.scalar (← scalarTag tag content plain) content)
      | .flowSequenceStart =>
        openAnchor anchor true
        skip
        let items ← flowItems true fuel
        finish anchor (.sequence (collectionTag "seq" tag) items)
      | .flowMappingStart =>
        openAnchor anchor false
        skip
        let entries ← flowEntries true fuel
        finish anchor (.mapping (collectionTag "map" tag) entries)
      | .blockSequenceStart =>
        if block then
          openAnchor anchor true
          skip
          let items ← blockItems fuel
          finish anchor (.sequence (collectionTag "seq" tag) items)
        else bare anchor tag .blockSequenceStart
      | .blockMappingStart =>
        if block then
          openAnchor anchor false
          skip
          let entries ← blockEntries fuel
          finish anchor (.mapping (collectionTag "map" tag) entries)
        else bare anchor tag .blockMappingStart
      | t => bare anchor tag t

/-- A node of properties alone is an empty scalar. -/
def bare (anchor tag : Option String) (found : Token) : Build Node := do
  if anchor.isNone && tag.isNone then failGrammar (.contentExpected found.label)
  openAnchor anchor false
  finish anchor (.scalar (← scalarTag tag {} tag.isNone) {})

/-- Reads a node unless one of the given tokens comes next. -/
def nodeUnless (ts : List Token) (block indentless : Bool) : Nat → Build Node
  | 0 => failGrammar (.contentExpected "")
  | fuel + 1 => do
    if ← nextIsOneOf ts then return omitted
    node block indentless fuel

/-- Reads the items of an indented sequence and its end. -/
def blockItems : Nat → Build (List Node)
  | 0 => failGrammar (.contentExpected "")
  | fuel + 1 => do
    if ← skipIf .blockEntry then
      let item ← nodeUnless [.blockEntry, .blockEnd] true false fuel
      return item :: (← blockItems fuel)
    if ← skipIf .blockEnd then return []
    failGrammar (.blockEndExpected (← peek).label)

/-- Reads the items of a sequence that is not indented. -/
def looseItems : Nat → Build (List Node)
  | 0 => failGrammar (.contentExpected "")
  | fuel + 1 => do
    if ← skipIf .blockEntry then
      let item ← nodeUnless [.blockEntry, .key, .value, .blockEnd] true false fuel
      return item :: (← looseItems fuel)
    return []

/-- Reads the entries of an indented mapping and its end. -/
def blockEntries : Nat → Build (List (Node × Node))
  | 0 => failGrammar (.contentExpected "")
  | fuel + 1 => do
    if ← skipIf .key then
      let key ← nodeUnless [.key, .value, .blockEnd] true true fuel
      let value ← if ← skipIf .value then nodeUnless [.key, .value, .blockEnd] true true fuel
        else pure omitted
      return (key, value) :: (← blockEntries fuel)
    if ← skipIf .blockEnd then return []
    failGrammar (.blockEndExpected (← peek).label)

/-- Reads the items of a bracketed sequence and its end. An item may be a single pair. -/
def flowItems (first : Bool) : Nat → Build (List Node)
  | 0 => failGrammar (.contentExpected "")
  | fuel + 1 => do
    if ← skipIf .flowSequenceEnd then return []
    if !first then
      if !(← skipIf .flowEntry) then
        failGrammar (.separatorExpected ']' (← peek).label)
    if ← skipIf .key then
      let key ← nodeUnless [.value, .flowEntry, .flowSequenceEnd] false false fuel
      let value ← if ← skipIf .value then
          nodeUnless [.flowEntry, .flowSequenceEnd] false false fuel
        else pure omitted
      return .mapping (coreTag "map") [(key, value)] :: (← flowItems false fuel)
    if ← skipIf .flowSequenceEnd then return []
    let item ← node false false fuel
    return item :: (← flowItems false fuel)

/-- Reads the entries of a bracketed mapping and its end. -/
def flowEntries (first : Bool) : Nat → Build (List (Node × Node))
  | 0 => failGrammar (.contentExpected "")
  | fuel + 1 => do
    if ← skipIf .flowMappingEnd then return []
    if !first then
      if !(← skipIf .flowEntry) then
        failGrammar (.separatorExpected '\x7d' (← peek).label)
    if ← skipIf .key then
      let key ← nodeUnless [.value, .flowEntry, .flowMappingEnd] false false fuel
      let value ← if ← skipIf .value then
          nodeUnless [.flowEntry, .flowMappingEnd] false false fuel
        else pure omitted
      return (key, value) :: (← flowEntries false fuel)
    if ← skipIf .flowMappingEnd then return []
    let key ← node false false fuel
    return (key, omitted) :: (← flowEntries false fuel)

end

/-- Reads directives and sets the handles of the document that follows them. -/
def directives : Nat → Option (Nat × Nat) → List (String × String) → Build Unit
  | 0, _, _ => return
  | fuel + 1, version, handles => do
    match ← peek with
    | .directive d =>
      skip
      match d with
      | .version major minor =>
        if version.isSome then failGrammar .repeatedVersion
        if major != 1 then failGrammar .incompatibleVersion
        directives fuel (some (major, minor)) handles
      | .handle name expansion =>
        if (handles.lookup name).isSome then failGrammar (.repeatedHandle name)
        directives fuel version (handles ++ [(name, expansion)])
      | .other => directives fuel version handles
    | _ => modify fun r => { r with handles := handles ++ defaultHandles }

/-- Passes the marks that end documents. -/
def skipDocumentEnds : Nat → Build Unit
  | 0 => return
  | fuel + 1 => do
    if ← skipIf .documentEnd then skipDocumentEnds fuel

/-- Reads the start of a document that is marked, if the text does not end here. -/
def documentStart (fuel : Nat) : Build Bool := do
  skipDocumentEnds fuel
  if (← peek) == .streamEnd then return false
  directives fuel none []
  if !(← skipIf .documentStart) then failGrammar (.documentStartExpected (← peek).label)
  return true

def isDirective : Token → Bool
  | .directive _ => true
  | _ => false

/-- Reads the root of the first document. -/
def root? (fuel : Nat) : Build (Option Node) := do
  let t ← peek
  if isDirective t || t == .documentStart || t == .streamEnd then
    if ← documentStart fuel then
      let t ← peek
      if isDirective t || t == .documentStart || t == .documentEnd || t == .streamEnd then
        return some omitted
      return some (← node true false fuel)
    return none
  modify fun r => { r with handles := defaultHandles }
  return some (← node true false fuel)

/-- Reads the root of the only document, if there is one. -/
def onlyRoot? (fuel : Nat) : Build (Option Node) := do
  discard (skipIf .streamStart)
  match ← root? fuel with
  | none => return none
  | some root =>
    discard (skipIf .documentEnd)
    if ← documentStart fuel then failAnchor .secondDocument
    return some root

end Build

/-- The root of the document that a token sequence holds. -/
def Node.ofTokens? (version : Version) (ts : Tokens) : Except Fault (Option Node) :=
  let fuel := 3 * ts.tokens.length + 8
  (Build.onlyRoot? fuel).run' { version, tokens := ts.tokens, fault := ts.fault }

end GraphImport.Yaml
