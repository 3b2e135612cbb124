/-!
# Places in a text

The characters still to be read, with the number of those already read. A place is shown by its
line and column, both counted from one.
-/
namespace GraphImport.Text

structure Cursor where
  rest : List Char
  index : Nat := 0
deriving Repr

namespace Cursor

def ofString (s : String) : Cursor :=
  { rest := s.toList }

def peek? (c : Cursor) : Option Char :=
  c.rest.head?

/-- Moves on by some characters, or to the end. -/
def skip (c : Cursor) : Nat → Cursor
  | 0 => c
  | n + 1 => match c.rest with
    | [] => c
    | _ :: rest => skip { rest, index := c.index + 1 } n

/-- The characters up to the first that fails a test, and the place after them. -/
def span (c : Cursor) (p : Char → Bool) : List Char × Cursor :=
  let taken := c.rest.takeWhile p
  (taken, { rest := c.rest.dropWhile p, index := c.index + taken.length })

def skipWhile (c : Cursor) (p : Char → Bool) : Cursor :=
  (c.span p).2

/-- The place after some text, if it comes next. -/
def after? (c : Cursor) (s : List Char) : Option Cursor :=
  if s.isPrefixOf c.rest then some (c.skip s.length) else none

end Cursor

/-- Line and column of an index in a text. -/
def lineColumn (text : List Char) (index : Nat) : Nat × Nat :=
  let before := text.take index
  let line := before.count '\n' + 1
  let column := (before.reverse.takeWhile (· != '\n')).length + 1
  (line, column)

end GraphImport.Text
