import GraphImport.Text.Cursor
import GraphImport.Text.Quoted
/-!
# Faults of TOML texts

Why a text is no TOML document, and where the reader noticed it.
-/
namespace GraphImport.Toml

/-- A key is a path of names. -/
abbrev Key := List String

inductive Cause
  | statementExpected
  | lineEndExpected
  | equalsExpected
  | keyExpected
  | headerUnclosed (ofArray : Bool)
  | declaredTwice (key : Key)
  | redefined (key : Key)
  | immutable (key : Key)
  | overwritten
  | repeatedInlineKey (name : String)
  | valueExpected
  | arrayUnclosed
  | inlineTableUnclosed
  | unterminatedString
  | delimiterExpected (delimiter : String)
  | illegalCharacter (found : Char)
  | invalidCharacter (found : Char)
  | strayBackslash
  | hexExpected
  | noScalarValue
  | invalidDate
deriving DecidableEq, Repr

structure Fault where
  cause : Cause
  index : Nat
deriving DecidableEq, Repr

/-- A key as messages show it. -/
def displayKey (key : Key) : String :=
  match key with
  | [name] => s!"({Text.quoted name},)"
  | _ => "(" ++ ", ".intercalate (key.map Text.quoted) ++ ")"

def displayChar (c : Char) : String :=
  Text.quoted (String.singleton c)

def Cause.message : Cause → String
  | .statementExpected => "Invalid statement"
  | .lineEndExpected => "Expected newline or end of document after a statement"
  | .equalsExpected => "Expected '=' after a key in a key/value pair"
  | .keyExpected => "Invalid initial character for a key part"
  | .headerUnclosed false => "Expected ']' at the end of a table declaration"
  | .headerUnclosed true => "Expected ']]' at the end of an array declaration"
  | .declaredTwice key => s!"Cannot declare {displayKey key} twice"
  | .redefined key => s!"Cannot redefine namespace {displayKey key}"
  | .immutable key => s!"Cannot mutate immutable namespace {displayKey key}"
  | .overwritten => "Cannot overwrite a value"
  | .repeatedInlineKey name => s!"Duplicate inline table key {Text.quoted name}"
  | .valueExpected => "Invalid value"
  | .arrayUnclosed => "Unclosed array"
  | .inlineTableUnclosed => "Unclosed inline table"
  | .unterminatedString => "Unterminated string"
  | .delimiterExpected delimiter => s!"Expected {Text.quoted delimiter}"
  | .illegalCharacter found => s!"Illegal character {displayChar found}"
  | .invalidCharacter found => s!"Found invalid character {displayChar found}"
  | .strayBackslash => "Unescaped '\\' in a string"
  | .hexExpected => "Invalid hex value"
  | .noScalarValue => "Escaped character is not a Unicode scalar value"
  | .invalidDate => "Invalid date or datetime"

/-- The message of a fault in a text. -/
def Fault.message (text : List Char) (f : Fault) : String :=
  let place :=
    if text.length ≤ f.index then "end of document"
    else
      let (line, column) := Text.lineColumn text f.index
      s!"line {line}, column {column}"
  s!"{f.cause.message} (at {place})"

end GraphImport.Toml
