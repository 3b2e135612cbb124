import GraphImport.Document.Calendar
import GraphImport.Yaml.Token
/-!
# Tags of plain scalars

A tag says what type a node has. Plain text without a tag gets one from its form, and the two
versions of the format differ in which forms are flags, integers and floating-point numbers.
-/
namespace GraphImport.Yaml

/-- The version of the format whose forms are in force. -/
inductive Version
  | v11
  | v12
deriving DecidableEq, Repr

/-- The full tag of a type of the standard vocabulary. -/
def coreTag (name : String) : String :=
  "tag:yaml.org,2002:" ++ name

/-- The name of a type of the standard vocabulary. -/
def coreName? (tag : String) : Option String :=
  if (coreTag "").isPrefixOf tag then some (String.ofList (tag.toList.drop (coreTag "").length))
  else none

namespace PlainForm

def isOneOf (words : List String) (cs : List Char) : Bool :=
  words.any fun word => word.toList == cs

def nullWords : List String := ["", "~", "null", "Null", "NULL"]

/-- A word in lower case, with a capital, and in capitals. -/
def cases (word : String) : List String :=
  [word, word.capitalize, word.map Char.toUpper]

def flagWords : Version → List String
  | .v11 => ["yes", "no", "true", "false", "on", "off"].flatMap cases
  | .v12 => ["true", "false"].flatMap cases

def unsigned (cs : List Char) : List Char :=
  match cs with
  | '-' :: rest | '+' :: rest => rest
  | _ => cs

def isDigitOrLine (c : Char) : Bool :=
  c.isDigit || c == '_'

/-- A digit, then digits and underscores. -/
def isDigits (cs : List Char) : Bool :=
  (cs.headD ' ').isDigit && cs.all isDigitOrLine

def isNonempty (test : Char → Bool) (cs : List Char) : Bool :=
  !cs.isEmpty && cs.all test

def isBinaryChar (c : Char) : Bool := c == '0' || c == '1' || c == '_'

def isOctalChar (c : Char) : Bool := ('0' ≤ c && c ≤ '7') || c == '_'

def isHexChar (c : Char) : Bool := Number.isHexDigit c || c == '_'

/-- What stands between separators. -/
def splitAt (separator : Char) (cs : List Char) : List (List Char) :=
  cs.foldr (fun c pieces => match pieces with
    | [] => [[]]
    | piece :: rest => if c == separator then [] :: piece :: rest else (c :: piece) :: rest) [[]]

/-- A place of a number to base sixty: one digit, or two of which the first is at most five. -/
def isSixtieth (cs : List Char) : Bool :=
  match cs with
  | [a] => a.isDigit
  | [a, b] => '0' ≤ a && a ≤ '5' && b.isDigit
  | _ => false

/-- A number to base sixty, of at least two places separated by colons. -/
def isSexagesimal (first : List Char → Bool) (cs : List Char) : Bool :=
  match splitAt ':' cs with
  | lead :: place :: places => first lead && (place :: places).all isSixtieth
  | _ => false

def isInteger (version : Version) (cs : List Char) : Bool :=
  let body := unsigned cs
  match version, body with
  | _, '0' :: 'b' :: rest => isNonempty isBinaryChar rest
  | _, '0' :: 'x' :: rest => isNonempty isHexChar rest
  | .v12, '0' :: 'o' :: rest => isNonempty isOctalChar rest
  | .v12, _ => isNonempty isDigitOrLine body && cs.head? != some '_'
  | .v11, ['0'] => true
  | .v11, '0' :: rest => isNonempty isOctalChar rest
  | .v11, _ => isDigits body || isSexagesimal isDigits body

/-- An exponent: the letter, a sign that one version requires, and digits. -/
def isExponent (needsSign : Bool) (cs : List Char) : Bool :=
  match cs with
  | e :: rest =>
    (e == 'e' || e == 'E') && (!needsSign || unsigned rest != rest) &&
      isNonempty Char.isDigit (unsigned rest)
  | [] => false

/-- Splits at the letter of an exponent. -/
def exponentSplit (cs : List Char) : List Char × List Char :=
  (cs.takeWhile fun c => c != 'e' && c != 'E', cs.dropWhile fun c => c != 'e' && c != 'E')

def isFloat (version : Version) (cs : List Char) : Bool :=
  let body := unsigned cs
  let (mantissa, exponent) := exponentSplit body
  let whole := mantissa.takeWhile (· != '.')
  let places := (mantissa.dropWhile (· != '.')).drop 1
  let hasPoint := mantissa.contains '.'
  let fits (needsSign : Bool) := exponent.isEmpty || isExponent needsSign exponent
  let special := isOneOf (cases ".inf" ++ [".Inf"]) body || isOneOf [".nan", ".NaN", ".NAN"] cs
  let positional := hasPoint && isDigits whole && places.all isDigitOrLine
  match version with
  | .v11 =>
    special || (positional && fits true) ||
      (hasPoint && whole.isEmpty && cs == body && isDigits places && fits true) ||
      (hasPoint && exponent.isEmpty && places.all isDigitOrLine && isSexagesimal isDigits whole)
  | .v12 =>
    special || (positional && fits false) ||
      (!hasPoint && isDigits whole && isExponent false exponent) ||
      (hasPoint && whole.isEmpty && isNonempty isDigitOrLine places && fits true)

end PlainForm

/-- A date, with a clock time and an offset if there are any, as written. -/
structure Stamp where
  date : Document.Date
  clock : Option Document.Clock := none
  /-- All digits of the fraction of a second. -/
  fraction : List Char := []
  zone : Option Int := none
deriving Repr

namespace Stamp

/-- Reads at least `least` and at most `most` digits. -/
def number? (least most : Nat) (cs : List Char) : Option (Nat × List Char) :=
  let digits := (cs.take most).takeWhile Char.isDigit
  if digits.length < least then none
  else some (Number.natOfDigits 10 digits, cs.drop digits.length)

def expect? (c : Char) (cs : List Char) : Option (List Char) :=
  match cs with
  | x :: rest => if x == c then some rest else none
  | [] => none

def isBlank (c : Char) : Bool := c == ' ' || c == '\t'

/-- Reads what follows the seconds: Z, or a sign, hours and perhaps minutes, or nothing. -/
def zone? (cs : List Char) : Option (Option Int) :=
  match cs.dropWhile isBlank with
  | [] => if cs.isEmpty then some none else none
  | ['Z'] => some (some 0)
  | sign :: rest =>
    if sign != '+' && sign != '-' then none
    else do
      let (hours, rest) ← number? 1 2 rest
      let (minutes, rest) ← match rest with
        | ':' :: rest => number? 2 2 rest
        | _ => some (0, rest)
      let total : Int := hours * 60 + minutes
      if rest.isEmpty then some (some (if sign == '-' then -total else total)) else none

/-- The digits of a fraction that go into microseconds. -/
def microseconds (fraction : List Char) : Nat :=
  let six := fraction.take 6
  Number.natOfDigits 10 (six ++ List.replicate (6 - six.length) '0')

/-- Reads a clock time with its fraction and offset. -/
def clock? (date : Document.Date) (cs : List Char) : Option Stamp := do
  let (hour, rest) ← number? 1 2 cs
  let (minute, rest) ← number? 2 2 (← expect? ':' rest)
  let (second, rest) ← number? 2 2 (← expect? ':' rest)
  let (fraction, rest) := match rest with
    | '.' :: rest => (rest.takeWhile Char.isDigit, rest.dropWhile Char.isDigit)
    | _ => ([], rest)
  let zone ← zone? rest
  let clock := { hour, minute, second, microsecond := microseconds fraction }
  return { date, clock := some clock, fraction, zone }

/-- Reads a timestamp. -/
def read? (cs : List Char) : Option Stamp := do
  let (year, rest) ← number? 4 4 cs
  let (month, rest) ← number? 1 2 (← expect? '-' rest)
  let (day, rest) ← number? 1 2 (← expect? '-' rest)
  let date : Document.Date := { year, month, day }
  match rest with
  | [] => return { date }
  | 'T' :: rest | 't' :: rest => clock? date rest
  | c :: rest => if isBlank c then clock? date (rest.dropWhile isBlank) else none

/-- Whether plain text is a timestamp: a date alone needs two digits for month and day. -/
def isPlainForm (cs : List Char) : Bool :=
  match read? cs with
  | some stamp => stamp.clock.isSome || cs.length == 10
  | none => false

end Stamp

/-- The type that plain text has by its form. -/
def plainType (version : Version) (cs : List Char) : String :=
  if PlainForm.isOneOf (PlainForm.flagWords version) cs then "bool"
  else if PlainForm.isFloat version cs then "float"
  else if PlainForm.isInteger version cs then "int"
  else if cs == "<<".toList then "merge"
  else if PlainForm.isOneOf PlainForm.nullWords cs then "null"
  else if Stamp.isPlainForm cs then "timestamp"
  else if cs == ['='] then "value"
  else "str"

end GraphImport.Yaml
