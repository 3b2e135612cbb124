import GraphImport.Text.Blank
import GraphImport.Text.Cursor
/-!
# Environment files

Lines that give variables values: an optional word of export, a name, a sign of equality and a
value, bare or in quotes. A name alone gives no value. The reader passes over the rest of a line
that it cannot read and remembers where the statement started.
-/
namespace GraphImport.EnvFile

open Text (Cursor isSpace)

/-- A statement: a name and its value, if it has one. -/
structure Entry where
  name : String
  value : Option String := none
deriving DecidableEq, Repr

/-- What a file holds, and on which lines statements start that cannot be read. -/
structure Contents where
  entries : List Entry := []
  unreadable : List Nat := []

def isLineEnd (c : Char) : Bool := c == '\n' || c == '\r'

/-- White space within a line. -/
def isGap (c : Char) : Bool := isSpace c && !isLineEnd c

def skipGap (c : Cursor) : Cursor := c.skipWhile isGap

/-- Passes the word of export, if it stands before a gap. -/
def skipExport (c : Cursor) : Cursor :=
  match c.after? "export".toList with
  | some next => if next.peek?.any isGap then skipGap next else c
  | none => c

/-- Where the line of a statement ends. -/
def lineEnd? (c : Cursor) : Option Cursor :=
  let c := skipGap c
  match c.rest with
  | [] => some c
  | '\r' :: '\n' :: _ => some (c.skip 2)
  | x :: _ => if isLineEnd x then some (c.skip 1) else none

def skipComment (c : Cursor) : Cursor :=
  let next := skipGap c
  if next.peek? == some '#' then next.skipWhile fun x => !isLineEnd x else c

/-- Passes the rest of a line. -/
def skipLine (c : Cursor) : Cursor :=
  let c := c.skipWhile fun x => !isLineEnd x
  match c.rest with
  | [] => c
  | _ :: _ => c.skip 1

/-- The text up to a closing quote and what follows it. A quote after a backslash closes the text
only if no other one does. -/
def quoted? (quote : Char) (c : Cursor) : Option (List Char × Cursor) :=
  let cs := c.rest
  let before (i : Nat) : Bool := i != 0 && cs[i - 1]? == some '\\'
  let quotes := (List.range cs.length).filter fun i => cs[i]? == some quote
  let closing? := match quotes.find? fun i => !before i with
    | some i => some i
    | none => quotes.getLast?
  closing?.map fun i => (cs.take i, c.skip (i + 1))

/-- Replaces a backslash and a letter by what they mean. -/
def unescape (meaning? : Char → Option Char) : List Char → List Char
  | '\\' :: c :: rest => match meaning? c with
    | some meant => meant :: unescape meaning? rest
    | none => '\\' :: unescape meaning? (c :: rest)
  | c :: rest => c :: unescape meaning? rest
  | [] => []

/-- The escapes between single quotes. -/
def singleMeaning? (c : Char) : Option Char :=
  if c == '\\' || c == '\x27' then some c else none

/-- The escapes between double quotes. -/
def doubleMeaning? : Char → Option Char
  | '\\' => some '\\'
  | '\x27' => some '\x27'
  | '\x22' => some '\x22'
  | 'a' => some '\x07'
  | 'b' => some '\x08'
  | 'f' => some '\x0c'
  | 'n' => some '\n'
  | 'r' => some '\r'
  | 't' => some '\t'
  | 'v' => some '\x0b'
  | _ => none

/-- Bare text without a comment, which white space comes before, and without white space at the
end. -/
def bareText (cs : List Char) : List Char :=
  Text.trimEnd (go cs)
where
  go : List Char → List Char
    | [] => []
    | c :: rest =>
      if isSpace c && (rest.dropWhile isSpace).head? == some '#' then []
      else c :: go rest

/-- Reads a value after the sign and the gap that follows it. -/
def value? (c : Cursor) : Option (String × Cursor) :=
  match c.rest with
  | [] => some ("", c)
  | '\x27' :: _ => (quoted? '\x27' (c.skip 1)).map fun (cs, next) =>
    (String.ofList (unescape singleMeaning? cs), next)
  | '\x22' :: _ => (quoted? '\x22' (c.skip 1)).map fun (cs, next) =>
    (String.ofList (unescape doubleMeaning? cs), next)
  | _ =>
    let (cs, next) := c.span fun x => !isLineEnd x
    some (String.ofList (bareText cs), next)

/-- Reads a name, bare or in single quotes; none where a comment starts. -/
def name? (c : Cursor) : Option (Option String × Cursor) :=
  match c.rest with
  | '#' :: _ => some (none, c)
  | '\x27' :: _ =>
    let (cs, next) := (c.skip 1).span (· != '\x27')
    if cs.isEmpty || next.rest.isEmpty then none else some (some (String.ofList cs), next.skip 1)
  | _ =>
    let (cs, next) := c.span fun x => x != '=' && x != '#' && !isSpace x
    if cs.isEmpty then none else some (some (String.ofList cs), next)

/-- Reads a statement from its name on. The place is the one reached when it cannot be read. -/
def statement (c : Cursor) : Except Cursor (Option Entry × Cursor) := do
  let c := skipExport c
  let (name, c) ← (name? c).elim (.error c) .ok
  let c := skipGap c
  let (value, c) ← match c.after? ['='] with
    | none => pure (none, c)
    | some next => match value? (skipGap next) with
      | some (value, next) => pure (some value, next)
      | none => .error (skipGap next)
  let c := skipComment c
  match lineEnd? c with
  | some next => return (name.map fun name => { name, value }, next)
  | none => .error c

/-- How many lines end in a run of characters. -/
def countLines : List Char → Nat
  | '\r' :: '\n' :: rest => countLines rest + 1
  | c :: rest => countLines rest + (if isLineEnd c then 1 else 0)
  | [] => 0

/-- Reads statements from a place on, which lies on a line of the given number. -/
def statements : Nat → Nat → Cursor → Contents
  | 0, _, _ => {}
  | fuel + 1, line, c =>
    let start := c.skipWhile isSpace
    if start.rest.isEmpty then {}
    else
      let after (next : Cursor) : Contents :=
        statements fuel (line + countLines (c.rest.take (next.index - c.index))) next
      match statement start with
      | .ok (some entry, next) =>
        let later := after next
        { later with entries := entry :: later.entries }
      | .ok (none, next) => after next
      | .error reached =>
        let later := after (skipLine reached)
        { later with unreadable := line :: later.unreadable }

/-- The contents of a text. -/
def read (text : List Char) : Contents :=
  statements (text.length + 1) 1 { rest := text }

end GraphImport.EnvFile
