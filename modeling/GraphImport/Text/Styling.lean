/-!
# Styled text

Terminals take some sequences in a text for colours and styles: an escape character, an opening
bracket, parameters and a letter. Where no terminal is, they are left out.
-/
namespace GraphImport.Text

/-- Characters that can stand between the bracket and the letter of a sequence. -/
def isParameter (c : Char) : Bool :=
  c.isDigit || c == ';' || c == '?'

/-- The length of the sequence that a text begins with; zero if it begins with none. -/
def sequenceLength : List Char → Nat
  | c :: d :: rest =>
    let parameters := rest.takeWhile isParameter
    let letter? := (rest.dropWhile isParameter).head?
    if c == '\x1b' && d == '[' && letter?.any Char.isAlpha then parameters.length + 3 else 0
  | _ => 0

/-- Leaves out the sequences of a text, the first of which may have been entered already: so many
of its characters are skipped. -/
def unstyledFrom : Nat → List Char → List Char
  | _, [] => []
  | skipped + 1, _ :: rest => unstyledFrom skipped rest
  | 0, c :: rest => match sequenceLength (c :: rest) with
    | 0 => c :: unstyledFrom 0 rest
    | skipped + 1 => unstyledFrom skipped rest

/-- A text without its sequences. What remains may form new ones, which stay. -/
def unstyled (s : String) : String :=
  String.ofList (unstyledFrom 0 s.toList)

end GraphImport.Text
