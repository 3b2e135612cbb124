import GraphImport.Toml.Scalar
import GraphImport.Toml.Table
/-!
# Reading TOML

A TOML text, statement by statement, as a document value: headers, keys with values, comments
and empty lines, one to a line.
-/
namespace GraphImport.Toml

open Document (Value)
open Text (Cursor)

def isBareKeyChar (c : Char) : Bool :=
  c.isAlphanum || c == '-' || c == '_'

/-- Passes a comment up to the end of its line, if one starts here. -/
def skipComment (c : Cursor) : Except Fault Cursor :=
  match c.rest with
  | '#' :: _ =>
    let (text, next) := (c.skip 1).span (· != '\n')
    match text.find? isControl with
    | some found => refuse (.invalidCharacter found)
        { c with index := c.index + 1 + text.findIdx isControl }
    | none => .ok next
  | _ => .ok c

/-- Passes gaps and comments between the items of a list. -/
def skipGaps : Nat → Cursor → Except Fault Cursor
  | 0, c => .ok c
  | fuel + 1, c => do
    let next ← skipComment (c.skipWhile isGap)
    if next.index == c.index then return c
    skipGaps fuel next

/-- Reads one name of a key. -/
def keyName (c : Cursor) : Except Fault (String × Cursor) :=
  match c.peek? with
  | some '\x27' => (fun (cs, c) => (String.ofList cs, c)) <$> literalString c
  | some '\x22' => (fun (cs, c) => (String.ofList cs, c)) <$> basicString c
  | some x =>
    if isBareKeyChar x then
      let (name, next) := c.span isBareKeyChar
      .ok (String.ofList name, next)
    else refuse .keyExpected c
  | none => refuse .keyExpected c

/-- Reads the names of a key, with points between them. -/
def keyFrom : Nat → Cursor → Except Fault (Key × Cursor)
  | 0, c => refuse .keyExpected c
  | fuel + 1, c => do
    let (name, c) ← keyName c
    let c := c.skipWhile isBlank
    match c.peek? with
    | some '.' =>
      let (names, c) ← keyFrom fuel ((c.skip 1).skipWhile isBlank)
      return (name :: names, c)
    | _ => return ([name], c)

def key (c : Cursor) : Except Fault (Key × Cursor) :=
  keyFrom (c.rest.length + 1) c

/-- Reads a key and the sign after it. -/
def keyAndSign (c : Cursor) : Except Fault (Key × Cursor) := do
  let (names, c) ← key c
  match c.after? ['='] with
  | some next => return (names, next.skipWhile isBlank)
  | none => refuse .equalsExpected c

mutual

/-- Reads one value; every nested value and every further item uses up fuel. -/
def value : Nat → Cursor → Except Fault (Value × Cursor)
  | 0, c => refuse .valueExpected c
  | fuel + 1, c =>
    match c.peek? with
    | some '[' => do
      let next ← skipGaps c.rest.length (c.skip 1)
      if next.peek? == some ']' then return (.list [], next.skip 1)
      items fuel [] next
    | some '\x7b' =>
      let next := (c.skip 1).skipWhile isBlank
      if next.peek? == some '\x7d' then .ok (.map [], next.skip 1)
      else pairs fuel [] next
    | some quote =>
      if quote == '\x27' || quote == '\x22' then
        (fun (cs, next) => (.text (String.ofList cs), next)) <$> string quote c
      else bareScalar c
    | none => refuse .valueExpected c

/-- Reads the items of a list from one of them on. -/
def items : Nat → List Value → Cursor → Except Fault (Value × Cursor)
  | 0, _, c => refuse .arrayUnclosed c
  | fuel + 1, known, c => do
    let (item, c) ← value fuel c
    let c ← skipGaps c.rest.length c
    match c.peek? with
    | some ']' => return (.list (item :: known).reverse, c.skip 1)
    | some ',' =>
      let c ← skipGaps c.rest.length (c.skip 1)
      if c.peek? == some ']' then return (.list (item :: known).reverse, c.skip 1)
      items fuel (item :: known) c
    | _ => refuse .arrayUnclosed c

/-- Reads the pairs of a table in braces from one of them on. -/
def pairs : Nat → Fields → Cursor → Except Fault (Value × Cursor)
  | 0, _, c => refuse .inlineTableUnclosed c
  | fuel + 1, known, c => do
    let (names, c) ← keyAndSign c
    let (item, c) ← value fuel c
    match assignInline names item known with
    | .error cause => refuse cause c
    | .ok known =>
      let c := c.skipWhile isBlank
      match c.peek? with
      | some '\x7d' => return (.map (entriesOf known), c.skip 1)
      | some ',' => pairs fuel known ((c.skip 1).skipWhile isBlank)
      | _ => refuse .inlineTableUnclosed c

end

/-- What is read so far: the fields, and the header in force with its number. -/
structure Progress where
  fields : Fields := []
  header : Key := []
  headers : Nat := 0

def Progress.put (p : Progress) (c : Cursor) (fields : Except Cause Fields) :
    Except Fault Progress :=
  match fields with
  | .ok fields => .ok { p with fields }
  | .error cause => refuse cause c

/-- Reads a header after its opening brackets. -/
def header (p : Progress) (ofArray : Bool) (c : Cursor) : Except Fault (Progress × Cursor) := do
  let (names, c) ← key (c.skipWhile isBlank)
  let p := { p with header := names, headers := p.headers + 1 }
  let p ← p.put c (if ofArray then extend names p.fields else declare names p.fields)
  match c.after? (if ofArray then [']', ']'] else [']']) with
  | some next => return (p, next)
  | none => refuse (.headerUnclosed ofArray) c

/-- Reads a key and its value. -/
def assignment (p : Progress) (c : Cursor) : Except Fault (Progress × Cursor) := do
  let (names, c) ← keyAndSign c
  let (v, c) ← value (2 * c.rest.length + 2) c
  let p ← p.put c (assign p.headers p.header names v p.fields)
  return (p, c)

def startsKey (c : Char) : Bool :=
  isBareKeyChar c || c == '\x22' || c == '\x27'

/-- Reads a statement, if there is one before the end of the line. -/
def statement (p : Progress) (c : Cursor) : Except Fault (Progress × Cursor) :=
  match c.rest with
  | '[' :: '[' :: _ => header p true (c.skip 2)
  | '[' :: _ => header p false (c.skip 1)
  | x :: _ =>
    if startsKey x then assignment p c
    else if x == '\n' || x == '#' then .ok (p, c)
    else refuse .statementExpected c
  | [] => .ok (p, c)

/-- Reads the lines of a text. -/
def linesFrom : Nat → Progress → Cursor → Except Fault Progress
  | 0, p, _ => .ok p
  | fuel + 1, p, c => do
    let (p, c) ← statement p (c.skipWhile isBlank)
    let c ← skipComment (c.skipWhile isBlank)
    match c.rest with
    | [] => return p
    | '\n' :: _ => linesFrom fuel p (c.skip 1)
    | _ => refuse .lineEndExpected c

/-- Line breaks of two characters as line feeds. -/
def unifyBreaks : List Char → List Char
  | '\r' :: '\n' :: rest => '\n' :: unifyBreaks rest
  | c :: rest => c :: unifyBreaks rest
  | [] => []

/-- The document in a text whose line breaks are line feeds. -/
def read (text : List Char) : Except Fault Value :=
  (fun p => .map (entriesOf p.fields)) <$> linesFrom (text.length + 1) {} { rest := text }

end GraphImport.Toml
