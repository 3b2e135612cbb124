import GraphImport.Yaml.Scalar
/-!
# Tokens of a YAML text

A lexer passes through a text once and collects its tokens. In block context indentation opens
and closes collections. A node on one line may turn out to be a key when a colon follows it; until
then it is a possible key, and the tokens from it on are held back. When the text breaks off with
a fault, what was not held back before the faulty step still counts.
-/
namespace GraphImport.Yaml

/-- A node that becomes a key if a colon follows it on its line and within 1024 characters. -/
structure PossibleKey where
  token : Nat
  required : Bool
  index : Nat
  line : Nat
  column : Nat
deriving Repr

structure Lexer where
  place : Place
  tokens : Array Token := #[.streamStart]
  /-- How many brackets are open. -/
  flowDepth : Nat := 0
  /-- The column of the innermost block collection, -1 outside of all. -/
  indent : Int := -1
  outerIndents : List Int := []
  keyAllowed : Bool := true
  /-- Possible keys by the number of brackets around them. -/
  possibleKeys : List (Nat × PossibleKey) := []

/-- The tokens of a text, up to a fault if there is one. -/
structure Tokens where
  tokens : List Token
  fault : Option Fault := none

namespace Lexer

def push (l : Lexer) (t : Token) : Lexer :=
  { l with tokens := l.tokens.push t }

def inFlow (l : Lexer) : Bool :=
  l.flowDepth != 0

/-- How many tokens no possible key holds back. -/
def released (l : Lexer) : Nat :=
  l.possibleKeys.foldl (fun n (_, key) => min n key.token) l.tokens.size

def forgetKeyAt (l : Lexer) (depth : Nat) : Lexer :=
  { l with possibleKeys := l.possibleKeys.filter fun (d, _) => d != depth }

/-- Gives up the possible key at the present depth; a required one must not be given up. -/
def dropKey (l : Lexer) : Except Fault Lexer :=
  match l.possibleKeys.lookup l.flowDepth with
  | some key => if key.required then refuse .colonExpected else .ok (l.forgetKeyAt l.flowDepth)
  | none => .ok l

/-- Gives up the possible keys that lie on another line or too far back. -/
def dropStaleKeys (l : Lexer) : Except Fault Lexer :=
  let isStale (key : PossibleKey) := key.line != l.place.line || l.place.index - key.index > 1024
  if l.possibleKeys.any fun (_, key) => isStale key && key.required then refuse .colonExpected
  else .ok { l with possibleKeys := l.possibleKeys.filter fun (_, key) => !isStale key }

/-- Notes that a possible key starts here, if keys are allowed. -/
def savePossibleKey (l : Lexer) : Except Fault Lexer := do
  if !l.keyAllowed then return l
  let l ← l.dropKey
  let key : PossibleKey := {
    token := l.tokens.size
    required := !l.inFlow && l.indent == l.place.column
    index := l.place.index
    line := l.place.line
    column := l.place.column }
  return { l with possibleKeys := (l.flowDepth, key) :: l.possibleKeys }

/-- Closes block collections that are indented beyond a column. -/
def closeBlocks (l : Lexer) (column : Int) : Lexer :=
  if l.inFlow then l else go l.outerIndents l
where
  go : List Int → Lexer → Lexer
    | outer :: rest, l =>
      if l.indent > column then
        go rest { l.push .blockEnd with indent := outer, outerIndents := rest }
      else l
    | [], l => l

/-- Opens a block collection at a column, unless one is open there or further in. -/
def openBlock? (l : Lexer) (column : Nat) : Option Lexer :=
  if l.indent < column then
    some { l with indent := column, outerIndents := l.indent :: l.outerIndents }
  else none

/-- Passes blanks, comments and line breaks. In block context a new line allows keys. -/
def skipToToken (l : Lexer) : Lexer :=
  let start := if l.place.index == 0 && l.place.head == '\uFEFF' then l.place.step else l.place
  go (l.place.rest.length + 1) { l with place := start }
where
  go : Nat → Lexer → Lexer
    | 0, l => l
    | fuel + 1, l =>
      let p := l.place.skipBlanks.skipComment
      match p.lineBreak? with
      | some (_, next) => go fuel { l with place := next, keyAllowed := l.keyAllowed || !l.inFlow }
      | none => { l with place := p }

/-- Passes an indicator and gives its token. -/
def indicator (l : Lexer) (width : Nat) (t : Token) : Lexer :=
  { l.push t with place := l.place.advance width }

def endStream (l : Lexer) : Except Fault Lexer := do
  let l ← (l.closeBlocks (-1)).dropKey
  return { l.push .streamEnd with keyAllowed := false, possibleKeys := [] }

/-- Closes all block collections before a directive or a document mark. -/
def leaveDocument (l : Lexer) : Except Fault Lexer := do
  let l ← (l.closeBlocks (-1)).dropKey
  return { l with keyAllowed := false }

def openFlow (l : Lexer) (t : Token) : Except Fault Lexer := do
  let l ← l.savePossibleKey
  return { l.indicator 1 t with flowDepth := l.flowDepth + 1, keyAllowed := true }

def closeFlow (l : Lexer) (t : Token) : Except Fault Lexer := do
  let l ← l.dropKey
  return { l.indicator 1 t with flowDepth := l.flowDepth - 1, keyAllowed := false }

def flowEntry (l : Lexer) : Except Fault Lexer := do
  let l ← l.dropKey
  return { l.indicator 1 .flowEntry with keyAllowed := true }

/-- Opens a block collection before an indicator that needs one, where keys are allowed. -/
def openBefore (l : Lexer) (start : Token) (fault : TokenFault) : Except Fault Lexer :=
  if l.inFlow then .ok l
  else if !l.keyAllowed then refuse fault
  else .ok ((l.openBlock? l.place.column).elim l fun l => l.push start)

def blockEntry (l : Lexer) : Except Fault Lexer := do
  let l ← l.openBefore .blockSequenceStart .entryNotAllowed
  let l ← l.dropKey
  return { l.indicator 1 .blockEntry with keyAllowed := true }

def explicitKey (l : Lexer) : Except Fault Lexer := do
  let l ← l.openBefore .blockMappingStart .keyNotAllowed
  let l ← l.dropKey
  return { l.indicator 1 .key with keyAllowed := !l.inFlow }

/-- A colon: it makes the possible key at the present depth a key, or else stands on its own. -/
def mappingValue (l : Lexer) : Except Fault Lexer :=
  match l.possibleKeys.lookup l.flowDepth with
  | some key =>
    let l := l.forgetKeyAt l.flowDepth
    let opened := if l.inFlow then none else l.openBlock? key.column
    let starts := if opened.isSome then #[.blockMappingStart, .key] else #[.key]
    let l := opened.getD l
    let tokens := l.tokens.take key.token ++ starts ++ l.tokens.drop key.token
    .ok { { l with tokens }.indicator 1 .value with keyAllowed := false }
  | none => do
    let l ← l.openBefore .blockMappingStart .valueNotAllowed
    let l ← l.dropKey
    return { l.indicator 1 .value with keyAllowed := !l.inFlow }

/-- Adds a token that may start a key, read from the present place. -/
def keyLike (l : Lexer) (read : Place → Except Fault (Token × Place)) : Except Fault Lexer := do
  let l ← l.savePossibleKey
  let (t, place) ← read l.place
  return { l.push t with place, keyAllowed := false }

def blockScalar (l : Lexer) (folded : Bool) : Except Fault Lexer := do
  let l ← l.dropKey
  let (content, place) ← blockText folded l.indent l.place
  return { l.push (.scalar content false) with place, keyAllowed := true }

def quotedScalar (l : Lexer) (double : Bool) : Except Fault Lexer :=
  l.keyLike fun p => do
    let (content, next) ← quotedText double p
    return (.scalar content false, next)

def plainScalar (l : Lexer) : Except Fault Lexer := do
  let l ← l.savePossibleKey
  let text := plainText l.inFlow (l.indent + 1) l.place
  return {
    l.push (.scalar { chars := text.chars } true) with
    place := text.place
    keyAllowed := text.atLineStart }

/-- Whether plain text may start here: not with an indicator, except that a dash, and in block
context a question mark or a colon, may start it before anything but a gap. -/
def startsPlain (l : Lexer) : Bool :=
  let c := l.place.head
  let indicators := "-?:,[]\x7b\x7d#&*!|>'\x22%@\x60".toList
  !(isWideGap c || indicators.contains c) ||
    (!isWideGap (l.place.peek 1) && (c == '-' || (!l.inFlow && (c == '?' || c == ':'))))

/-- Reads the next token, with those that indentation puts before it. -/
def next (l : Lexer) : Except Fault Lexer := do
  let l ← l.skipToToken.dropStaleKeys
  let l := l.closeBlocks l.place.column
  let p := l.place
  let c := p.head
  let gapFollows := isWideGap (p.peek 1)
  if c == endMark then l.endStream
  else if c == '%' && p.column == 0 then do
    let l ← l.leaveDocument
    let (t, place) ← directive p.step
    return { l.push t with place }
  else if p.column == 0 && p.marks '-' then
    (fun l => l.indicator 3 .documentStart) <$> l.leaveDocument
  else if p.column == 0 && p.marks '.' then
    (fun l => l.indicator 3 .documentEnd) <$> l.leaveDocument
  else if c == '[' then l.openFlow .flowSequenceStart
  else if c == '\x7b' then l.openFlow .flowMappingStart
  else if c == ']' then l.closeFlow .flowSequenceEnd
  else if c == '\x7d' then l.closeFlow .flowMappingEnd
  else if c == ',' then l.flowEntry
  else if c == '-' && gapFollows then l.blockEntry
  else if c == '?' && (l.inFlow || gapFollows) then l.explicitKey
  else if c == ':' && (l.inFlow || gapFollows) then l.mappingValue
  else if c == '*' then
    l.keyLike fun p => (fun (name, next) => (.alias name, next)) <$> anchorName p.step
  else if c == '&' then
    l.keyLike fun p => (fun (name, next) => (.anchor name, next)) <$> anchorName p.step
  else if c == '!' then l.keyLike tag
  else if c == '|' && !l.inFlow then l.blockScalar false
  else if c == '>' && !l.inFlow then l.blockScalar true
  else if c == '\x27' then l.quotedScalar false
  else if c == '\x22' then l.quotedScalar true
  else if l.startsPlain then l.plainScalar
  else refuse (.cannotStart c)

/-- Reads tokens up to the end of the text or a fault. -/
def run : Nat → Lexer → Tokens
  | 0, l => { tokens := l.tokens.toList }
  | fuel + 1, l =>
    let stop (fault : Fault) : Tokens :=
      { tokens := l.tokens.toList.take l.released, fault := some fault }
    match l.next with
    | .error fault => stop fault
    | .ok l' =>
      if l'.tokens.back? == some .streamEnd then { tokens := l'.tokens.toList }
      else match l'.dropStaleKeys with
        | .error fault => stop fault
        | .ok l' => run fuel l'

end Lexer

/-- The tokens of a text. -/
def tokensOf (text : List Char) : Tokens :=
  Lexer.run (text.length + 2) { place := { rest := text } }

end GraphImport.Yaml
