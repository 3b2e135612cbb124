import GraphImport.Number.Decimal
import GraphImport.Yaml.Fault
/-!
# Places in a YAML text

A place is what is left of the text together with the index, line and column reached. Beyond the
end every character is NUL, which no text may hold. Character classes are those of the format:
line breaks include next line, line separator and paragraph separator.
-/
namespace GraphImport.Yaml

/-- The character that stands for the end of the text. -/
def endMark : Char := '\x00'

def isBreak (c : Char) : Bool :=
  c == '\r' || c == '\n' || c == '\u0085' || c == '\u2028' || c == '\u2029'

def isBreakOrEnd (c : Char) : Bool :=
  isBreak c || c == endMark

/-- A blank, a line break or the end. -/
def isGap (c : Char) : Bool :=
  isBreakOrEnd c || c == ' '

/-- A blank, a tab, a line break or the end. -/
def isWideGap (c : Char) : Bool :=
  isGap c || c == '\t'

/-- The characters of anchors, handles and directive names. -/
def isNameChar (c : Char) : Bool :=
  c.isAlphanum || c == '-' || c == '_'

def isUriChar (c : Char) : Bool :=
  c.isAlphanum || "-;/?:@&=+$,_.!~*'()[]%".toList.contains c

/-- The characters a text may hold. -/
def isAllowed (c : Char) : Bool :=
  let n := c.toNat
  n == 0x09 || n == 0x0A || n == 0x0D || (0x20 ≤ n && n ≤ 0x7E) || n == 0x85 ||
    (0xA0 ≤ n && n ≤ 0xD7FF) || (0xE000 ≤ n && n ≤ 0xFFFD) || 0x10000 ≤ n

structure Place where
  rest : List Char
  index : Nat := 0
  line : Nat := 0
  column : Nat := 0
deriving Repr

namespace Place

/-- The character some steps ahead. -/
def peek (p : Place) (ahead : Nat) : Char :=
  p.rest.getD ahead endMark

/-- The next character. -/
def head (p : Place) : Char :=
  p.rest.headD endMark

/-- Moves on by one character. A byte order mark takes no column. -/
def step (p : Place) : Place :=
  match p.rest with
  | [] => p
  | c :: rest =>
    if c == '\r' && rest.head? == some '\n' then
      { p with rest, index := p.index + 1, column := p.column + 1 }
    else if isBreak c then { rest, index := p.index + 1, line := p.line + 1, column := 0 }
    else if c == '\uFEFF' then { p with rest, index := p.index + 1 }
    else { p with rest, index := p.index + 1, column := p.column + 1 }

def advance (p : Place) : Nat → Place
  | 0 => p
  | n + 1 => p.step.advance n

/-- The characters up to the first that fails a test, and the place after them. -/
def span (p : Place) (test : Char → Bool) : List Char × Place :=
  let taken := p.rest.takeWhile test
  (taken, p.advance taken.length)

def skipWhile (p : Place) (test : Char → Bool) : Place :=
  (p.span test).2

def skipBlanks (p : Place) : Place :=
  p.skipWhile (· == ' ')

/-- Moves on to the end of the line. -/
def skipLine (p : Place) : Place :=
  p.skipWhile fun c => !isBreakOrEnd c

/-- Passes a comment, if one starts here. -/
def skipComment (p : Place) : Place :=
  if p.head == '#' then p.skipLine else p

/-- Passes a line break. Line and paragraph separators stay what they are, any other break
counts as a line feed. -/
def lineBreak? (p : Place) : Option (Char × Place) :=
  let c := p.head
  if c == '\r' && p.peek 1 == '\n' then some ('\n', p.advance 2)
  else if c == '\u2028' || c == '\u2029' then some (c, p.step)
  else if isBreak c then some ('\n', p.step)
  else none

/-- Whether three characters of one kind and then a gap come next. -/
def marks (p : Place) (c : Char) : Bool :=
  p.head == c && p.peek 1 == c && p.peek 2 == c && isWideGap (p.peek 3)

/-- Whether a document mark comes next, wherever in its line. -/
def atSeparator (p : Place) : Bool :=
  p.marks '-' || p.marks '.'

end Place
end GraphImport.Yaml
