import GraphImport.Yaml.Marker
/-!
# Scalars

The three ways to write text. Plain text ends where a mapping value, a comment or, within
brackets, a bracket begins; quoted text ends at its quote; block text ends where the indentation
does. In plain and quoted text a single line break becomes a blank and further ones stay, and
folded block text does the same between lines that start with no blank.
-/
namespace GraphImport.Yaml

/-- The break of a line and the breaks of the empty lines after it, folded. -/
def fold (first : Char) (more : List Char) : List Char :=
  if first != '\n' then first :: more
  else if more.isEmpty then [' ']
  else more

/-! ## Plain text -/

/-- Whether a colon before these characters ends plain text. -/
def endsKey (inFlow : Bool) (rest : List Char) : Bool :=
  let next := rest.headD endMark
  isWideGap next || (inFlow && ",[]\x7b\x7d".toList.contains next)

/-- The characters of plain text up to the next gap or its end. -/
def plainRun (inFlow : Bool) : List Char → List Char
  | [] => []
  | c :: rest =>
    if isWideGap c || (c == ':' && endsKey inFlow rest) ||
        (inFlow && ",?[]\x7b\x7d".toList.contains c) then []
    else c :: plainRun inFlow rest

/-- Passes blanks and line breaks after a line break. Nothing counts before a document mark. -/
def plainBreaks : Nat → List Char → Place → Option (List Char) × Place
  | 0, known, p => (some known.reverse, p)
  | fuel + 1, known, p =>
    if p.head == ' ' then plainBreaks fuel known p.step
    else match p.lineBreak? with
      | some (c, next) =>
        if next.atSeparator then (none, next) else plainBreaks fuel (c :: known) next
      | none => (some known.reverse, p)

/-- What stands between two runs of plain text, and whether a line ended there. -/
structure PlainGap where
  chars : List Char
  place : Place
  newLine : Bool

def plainGap (p : Place) : PlainGap :=
  let (blanks, next) := p.span (· == ' ')
  match next.lineBreak? with
  | none => { chars := blanks, place := next, newLine := false }
  | some (first, next) =>
    if next.atSeparator then { chars := [], place := next, newLine := true }
    else match plainBreaks (next.rest.length + 1) [] next with
      | (none, next) => { chars := [], place := next, newLine := true }
      | (some more, next) => { chars := fold first more, place := next, newLine := true }

/-- Plain text, the place after it, and whether that is at the start of a line. -/
structure PlainText where
  chars : List Char
  place : Place
  atLineStart : Bool

/-- Reads plain text on from what is known of it and the gap that would come next. -/
def plainFrom (inFlow : Bool) (indent : Int) : Nat → List Char → PlainGap → PlainText
  | 0, known, gap => { chars := known, place := gap.place, atLineStart := gap.newLine }
  | fuel + 1, known, gap =>
    let p := gap.place
    let run := if p.head == '#' then [] else plainRun inFlow p.rest
    if run.isEmpty then { chars := known, place := p, atLineStart := gap.newLine }
    else
      let known := known ++ gap.chars ++ run
      let next := plainGap (p.advance run.length)
      if next.chars.isEmpty || next.place.head == '#' ||
          (!inFlow && next.place.column < indent) then
        { chars := known, place := next.place, atLineStart := next.newLine }
      else plainFrom inFlow indent fuel known next

def plainText (inFlow : Bool) (indent : Int) (p : Place) : PlainText :=
  plainFrom inFlow indent (p.rest.length + 1) [] { chars := [], place := p, newLine := false }

/-! ## Quoted text -/

/-- The character of a one-letter escape. -/
def escape? : Char → Option Char
  | '0' => some '\x00'
  | 'a' => some '\x07'
  | 'b' => some '\x08'
  | 't' | '\t' => some '\t'
  | 'n' => some '\n'
  | 'v' => some '\x0b'
  | 'f' => some '\x0c'
  | 'r' => some '\r'
  | 'e' => some '\x1b'
  | ' ' => some ' '
  | '\x22' => some '\x22'
  | '\\' => some '\\'
  | '/' => some '/'
  | 'N' => some '\u0085'
  | '_' => some '\u00a0'
  | 'L' => some '\u2028'
  | 'P' => some '\u2029'
  | _ => none

/-- The number of digits of an escape by code point. -/
def escapeWidth? : Char → Option Nat
  | 'x' => some 2
  | 'u' => some 4
  | 'U' => some 8
  | _ => none

/-- Passes blanks, tabs and line breaks within quotes, where no document mark may stand. -/
def quotedBreaks : Nat → List Char → Place → Except Fault (List Char × Place)
  | 0, known, p => .ok (known.reverse, p)
  | fuel + 1, known, p =>
    if p.atSeparator then refuse .unexpectedSeparator
    else
      let p := p.skipWhile fun c => c == ' ' || c == '\t'
      match p.lineBreak? with
      | some (c, next) => quotedBreaks fuel (c :: known) next
      | none => .ok (known.reverse, p)

/-- Reads an escape by code point, of which the digits come next. -/
def codePoint (width : Nat) (p : Place) : Except Fault (Content × Place) :=
  let digits := (List.range width).map p.peek
  match digits.find? fun c => !Number.isHexDigit c with
  | some c => refuse (.escapeExpected width c)
  | none =>
    let n := Number.natOfDigits 16 digits
    if n > 0x10FFFF then .error (.codePoint (n > 0x7FFFFFFF))
    else if 0xD800 ≤ n && n ≤ 0xDFFF then .ok ({ broken := true }, p.advance width)
    else .ok ({ chars := [Char.ofNat n] }, p.advance width)

/-- Reads an escape after its backslash. -/
def escaped (p : Place) : Except Fault (Content × Place) :=
  match escape? p.head with
  | some c => .ok ({ chars := [c] }, p.step)
  | none => match escapeWidth? p.head with
    | some width => codePoint width p.step
    | none => match p.lineBreak? with
      | some (_, next) => do
        let (chars, next) ← quotedBreaks (next.rest.length + 1) [] next
        return ({ chars }, next)
      | none => refuse (.unknownEscape p.head)

/-- The characters that end a run of quoted text. -/
def endsRun (c : Char) : Bool :=
  c == '\x27' || c == '\x22' || c == '\\' || isWideGap c

/-- Reads quoted text up to the next gap or quote. -/
def quotedRun (double : Bool) : Nat → Content → Place → Except Fault (Content × Place)
  | 0, known, p => .ok (known, p)
  | fuel + 1, known, p =>
    let (run, p) := p.span fun c => !endsRun c
    let known := known ++ { chars := run }
    let c := p.head
    if !double && c == '\x27' && p.peek 1 == '\x27' then
      quotedRun double fuel (known ++ { chars := [c] }) (p.advance 2)
    else if (double && c == '\x27') || (!double && (c == '\x22' || c == '\\')) then
      quotedRun double fuel (known ++ { chars := [c] }) p.step
    else if double && c == '\\' then do
      let (content, next) ← escaped p.step
      quotedRun double fuel (known ++ content) next
    else .ok (known, p)

/-- Reads the gap between two runs of quoted text. -/
def quotedGap (p : Place) : Except Fault (Content × Place) :=
  let (blanks, next) := p.span fun c => c == ' ' || c == '\t'
  if next.head == endMark then refuse .unexpectedEnd
  else match next.lineBreak? with
    | none => .ok ({ chars := blanks }, next)
    | some (first, next) => do
      let (more, next) ← quotedBreaks (next.rest.length + 1) [] next
      return ({ chars := fold first more }, next)

/-- Reads quoted text on to its closing quote. -/
def quotedFrom (double : Bool) : Nat → Content → Place → Except Fault (Content × Place)
  | 0, _, _ => refuse .unexpectedEnd
  | fuel + 1, known, p => do
    let (run, p) ← quotedRun double (p.rest.length + 1) known p
    if p.head == (if double then '\x22' else '\x27') then return (run, p.step)
    let (gap, p) ← quotedGap p
    quotedFrom double fuel (run ++ gap) p

/-- Reads quoted text from its opening quote on. -/
def quotedText (double : Bool) (p : Place) : Except Fault (Content × Place) :=
  quotedFrom double (p.rest.length + 1) {} p.step

/-! ## Block text -/

/-- What happens to the line breaks at the end of block text. -/
inductive Chomping
  | strip
  | clip
  | keep
deriving DecidableEq, Repr

def chomping? : Char → Option Chomping
  | '+' => some .keep
  | '-' => some .strip
  | _ => none

/-- Reads an indentation indicator, if one comes next. -/
def indentation? (p : Place) : Except Fault (Option Nat × Place) :=
  if p.head == '0' then refuse .zeroIndentation
  else if p.head.isDigit then .ok (some (Number.digitValue p.head), p.step)
  else .ok (none, p)

/-- Reads the header of block text: chomping and indentation in either order. -/
def blockHeader (p : Place) : Except Fault ((Chomping × Option Nat) × Place) := do
  let (chomping, width, p) ← match chomping? p.head with
    | some chomping => do
      let (width, p) ← indentation? p.step
      pure (chomping, width, p)
    | none => do
      let (width, p) ← indentation? p
      match width, chomping? p.head with
      | some _, some chomping => pure (chomping, width, p.step)
      | _, _ => pure (.clip, width, p)
  if !isGap p.head then refuse (.headerExpected p.head)
  return ((chomping, width), ← endOfLine p)

/-- Passes empty lines and finds the widest indentation among them. -/
def blockLead : Nat → List Char → Nat → Place → (List Char × Nat) × Place
  | 0, known, widest, p => ((known.reverse, widest), p)
  | fuel + 1, known, widest, p =>
    if p.head == ' ' then blockLead fuel known (max widest p.step.column) p.step
    else match p.lineBreak? with
      | some (c, next) => blockLead fuel (c :: known) widest next
      | none => ((known.reverse, widest), p)

/-- Passes blanks up to a column. -/
def skipIndent (indent : Nat) (p : Place) : Place :=
  let blanks := (p.rest.takeWhile (· == ' ')).length
  p.advance (min blanks (indent - p.column))

/-- Passes empty lines of block text. -/
def blockBreaks (indent : Nat) : Nat → List Char → Place → List Char × Place
  | 0, known, p => (known.reverse, p)
  | fuel + 1, known, p =>
    let p := skipIndent indent p
    match p.lineBreak? with
    | some (c, next) => blockBreaks indent fuel (c :: known) next
    | none => (known.reverse, p)

def startsBlank (p : Place) : Bool :=
  p.head == ' ' || p.head == '\t'

/-- The lines of block text: the text up to the last line, its break, and the empty lines after
it. -/
structure BlockLines where
  chars : List Char
  lastBreak : List Char
  trailing : List Char
  place : Place

/-- Reads lines of block text while they are indented, after some empty lines. -/
def blockLines (folded : Bool) (indent : Nat) : Nat → BlockLines → BlockLines
  | 0, known => known
  | fuel + 1, known =>
    let p := known.place
    if p.column != indent || p.head == endMark then known
    else
      let (line, next) := p.span fun c => !isBreakOrEnd c
      let (lastBreak, next) := match next.lineBreak? with
        | some (c, next) => ([c], next)
        | none => ([], next)
      let (trailing, next) := blockBreaks indent (next.rest.length + 1) [] next
      let chars := known.chars ++ known.trailing ++ line
      if next.column == indent && next.head != endMark then
        let joint :=
          if folded && lastBreak == ['\n'] && !startsBlank p && !startsBlank next then
            if trailing.isEmpty then [' '] else []
          else lastBreak
        blockLines folded indent fuel { chars := chars ++ joint, lastBreak, trailing, place := next }
      else { chars, lastBreak, trailing, place := next }

/-- Reads block text from its indicator on. The indentation of the node around it is given. -/
def blockText (folded : Bool) (indent : Int) (p : Place) : Except Fault (Content × Place) := do
  let ((chomping, width?), p) ← blockHeader p.step
  let least := max (indent + 1).toNat 1
  let (breaks, indent, p) := match width? with
    | none =>
      let ((breaks, widest), p) := blockLead (p.rest.length + 1) [] 0 p
      (breaks, max least widest, p)
    | some width =>
      let indent := least + width - 1
      let (breaks, p) := blockBreaks indent (p.rest.length + 1) [] p
      (breaks, indent, p)
  let lines := blockLines folded indent (p.rest.length + 1)
    { chars := [], lastBreak := [], trailing := breaks, place := p }
  let tail := match chomping with
    | .strip => []
    | .clip => lines.lastBreak
    | .keep => lines.lastBreak ++ lines.trailing
  return ({ chars := lines.chars ++ tail }, lines.place)

end GraphImport.Yaml
