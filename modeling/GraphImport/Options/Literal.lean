import GraphImport.Json.Reader
import GraphImport.Number.Integer
import GraphImport.Toml.Reader
/-!
# Texts as option values

A text may begin with a marker that says what it stands for. A text from the environment without
a marker is read as a TOML value, else as a number in looser notation, and else stays what it is.
-/
namespace GraphImport.Options

open Document (Value)
open Number (signed)

/-- Why a marked text cannot be converted. -/
inductive ConversionFault
  | notInteger (text : String) (fault : Number.IntegerFault)
  | notFloat (text : String)
  | notJson (text : String) (fault : Json.Fault)
  | unknownMarker (marker : String)
deriving DecidableEq, Repr

def ConversionFault.message : ConversionFault → String
  | .notInteger text fault => s!"Cannot convert {Text.quoted text} to integer: " ++
      fault.message 10 text
  | .notFloat text => s!"Cannot convert {Text.quoted text} to float: " ++
      s!"could not convert string to float: {Text.quoted text}"
  | .notJson text fault => s!"Cannot convert {Text.quoted text} to JSON: {fault.message text}"
  | .unknownMarker marker => Text.quoted marker

/-- Drops the single underscores between digits; none when there are others. -/
def withoutSeparators? (cs : List Char) : Option (List Char) :=
  let rec go : Bool → List Char → Option (List Char)
    | _, [] => some []
    | afterDigit, '_' :: d :: rest =>
      if afterDigit && d.isDigit then (go true rest).map (d :: ·) else none
    | _, ['_'] => none
    | _, c :: rest => (go c.isDigit rest).map (c :: ·)
  go false cs

/-- A decimal integer, which may have single underscores between its digits. -/
def integerOf (cs : List Char) : Except Number.IntegerFault Int :=
  match withoutSeparators? (Number.literal cs) with
  | some cs => Number.integerOf 10 cs
  | none => .error .malformed

def wordOf (cs : List Char) : String :=
  String.ofList (cs.map Char.toLower)

/-- A number that is infinite or not a number at all, by its word. -/
def special? (words : List String) (negative : Bool) (cs : List Char) : Option Float :=
  let word := wordOf cs
  if !words.contains word then none
  else if word == "nan" then some Toml.notNumber
  else some (if negative then -Toml.infinity else Toml.infinity)

/-- A floating-point number, with the freedoms that integers have. -/
def float? (cs : List Char) : Option Float := do
  let (negative, body) := signed (Number.literal cs)
  match special? ["inf", "infinity", "nan"] negative body with
  | some x => return x
  | none => Number.decimalOf? negative (← withoutSeparators? body)

def trueWords : List String := ["t", "true", "enabled", "1", "on", "yes"]

/-- The markers with what they make of the text after them. -/
def markers : List (String × (String → Except ConversionFault Value)) :=
  let text (s : String) : Except ConversionFault Value := .ok (.text s)
  let unset (_ : String) : Except ConversionFault Value := .ok .null
  [("@str", text),
    ("@int", fun s => ((integerOf s.toList).mapError (.notInteger s)).map .int),
    ("@float", fun s => (float? s.toList).elim (.error (.notFloat s)) fun x => .ok (.float x)),
    ("@bool", fun s => .ok (.bool (trueWords.contains (wordOf s.toList)))),
    ("@json", fun s => (Json.read s).mapError (.notJson s)),
    ("@format", text), ("@jinja", text), ("@reset", text), ("@merge", text),
    ("@merge_unique", text), ("@insert", text), ("@get", text), ("@read_file", text),
    ("@del", unset), ("@empty", unset), ("@note", unset), ("@comment", unset),
    ("@null", unset), ("@none", unset)]

/-- Whether a text begins like a marker. -/
def isMarked (s : String) : Bool :=
  markers.any fun (marker, _) => marker.toList.isPrefixOf s.toList

/-- Reads a text that begins like a marker: the word up to the first blank must be one. -/
def convertMarked (s : String) : Except ConversionFault Value :=
  let marker := String.ofList (s.toList.takeWhile (· != ' '))
  let rest := String.ofList ((s.toList.dropWhile (· != ' ')).drop 1)
  match markers.lookup marker with
  | some convert => convert rest
  | none => .error (.unknownMarker marker)

mutual

/-- Converts the marked texts in a value. -/
def convert : Value → Except ConversionFault Value
  | .text s => if isMarked s then convertMarked s else .ok (.text s)
  | .list items => Value.list <$> convertItems items
  | .map entries => Value.map <$> convertEntries entries
  | v => .ok v

def convertItems : List Value → Except ConversionFault (List Value)
  | [] => .ok []
  | v :: rest => do return (← convert v) :: (← convertItems rest)

def convertEntries : List (Value × Value) → Except ConversionFault (List (Value × Value))
  | [] => .ok []
  | (key, v) :: rest => do return (key, ← convert v) :: (← convertEntries rest)

end

/-- Whether a number is written with care for underscores and leading zeros. -/
def isTidy (cs : List Char) : Bool :=
  let hasPair (a b : Char) := (cs.zip (cs.drop 1)).contains (a, b)
  let leadingZero (others : List Char) : List Char → Bool
    | '0' :: c :: _ => !others.contains c
    | _ => false
  match cs with
  | [] => false
  | [c] => c != '_'
  | c :: rest =>
    c != '_' && cs.getLast? != some '_' && !hasPair '_' '.' && !hasPair '.' '_' &&
      !leadingZero ['.', 'o', 'b', 'x'] cs &&
      !((c == '+' || c == '-') && leadingZero ['.'] rest) && !hasPair '_' '_'

/-- A number in looser notation: any blanks around it, underscores before a point or exponent,
no digit between point and exponent, and infinity in any case. -/
def looseNumber? (cs : List Char) : Option Value := do
  if cs.contains '\n' || !isTidy (Text.trim cs) then none
  let cs := if (cs.headD ' ').isDigit then cs.filter (· != '_') else cs
  discard (float? cs)
  let (negative, body) := signed (Text.trim cs)
  let hasPoint := body.contains '.'
  if hasPoint || body.contains 'e' || body.contains 'E' then
    if (hasPoint && body.getLast? == some '.') || !(body.headD ' ').isDigit then none
    return .float (← Number.decimalOf? negative (body.filter (· != '_')))
  match special? ["inf", "nan"] negative body with
  | some x => return .float x
  | none =>
    if !body.all Char.isDigit then none
    let n : Int := Number.natOfDigits 10 body
    return .int (if negative then -n else n)

/-- The value of a text as a TOML value. -/
def tomlValue? (s : String) : Option Value :=
  match Toml.read (Toml.unifyBreaks ("key=" ++ s).toList) with
  | .ok (.map entries) => Value.find? "key" entries
  | _ => none

/-- The truth values of the environment may be capitalized. -/
def lowerFlag (s : String) : String :=
  let word := String.ofList (Text.trim s.toList)
  if word == "True" || word == "False" then s.map Char.toLower else s

/-- What the text of an environment variable stands for. -/
def ofEnvironment (s : String) : Except ConversionFault Value := do
  let s := lowerFlag s
  let v ← if isMarked s then convertMarked s
    else pure ((tomlValue? s).getD ((looseNumber? s.toList).getD (.text s)))
  convert v

end GraphImport.Options
