import GraphImport.Text.Blank
/-!
# Lines of running text

Text is divided at every character that ends a line; a carriage return and a line feed end it
together.
-/
namespace GraphImport.Text

/-- The characters that end a line of running text. -/
def isLineBreak (c : Char) : Bool :=
  ['\n', '\r', '\x0b', '\x0c', '\x1c', '\x1d', '\x1e', '\u0085', '\u2028', '\u2029'].contains c

/-- The lines of a text, at least one. -/
def linesOf (cs : List Char) : List (List Char) :=
  match cs with
  | [] => [[]]
  | '\r' :: '\n' :: rest => [] :: linesOf rest
  | c :: rest =>
    if isLineBreak c then [] :: linesOf rest
    else match linesOf rest with
      | line :: lines => (c :: line) :: lines
      | [] => [[c]]

/-- The lines of a text as they look: blanks at the end of a line do not show. -/
def trimmedLines (s : String) : List String :=
  (linesOf s.toList).map fun line => String.ofList (trimEnd line)

end GraphImport.Text
