import GraphImport.Document.Value
import GraphImport.Number.Integer
import GraphImport.Yaml.Tag
/-!
# Values of scalars

What the text of a scalar means under each type of the standard vocabulary.
-/
namespace GraphImport.Yaml

open Document (Value)

/-- What a text means, or why it means nothing. -/
abbrev Meaning (α : Type) := Except Fault α

def refuseScalar {α : Type} (fault : ScalarFault) : Meaning α :=
  .error (.scalar fault)

def lower (cs : List Char) : List Char :=
  cs.map Char.toLower

def flagValue (cs : List Char) : Meaning Value :=
  let word := String.ofList (lower cs)
  if ["yes", "true", "on"].contains word then .ok (.bool true)
  else if ["no", "false", "off"].contains word then .ok (.bool false)
  else refuseScalar (.notBool word)

/-- A sign and the rest. -/
def signOf (cs : List Char) : Bool × List Char :=
  (cs.head? == some '-', PlainForm.unsigned cs)

/-- The integer that a text writes in a base; it may have a sign of its own. -/
def integerIn (base : Nat) (cs : List Char) : Meaning Int :=
  (Number.integerOf base cs).mapError fun fault =>
    .scalar (.notInteger base (String.ofList cs) fault)

/-- Places to base sixty, the last one counting once. -/
def sexagesimal (places : List (List Char)) : Meaning Int :=
  places.foldlM (fun n place => (fun d => n * 60 + d) <$> integerIn 10 place) 0

def magnitudeOf (version : Version) (body : List Char) : Meaning Int :=
  match version, body with
  | _, ['0'] => .ok 0
  | _, '0' :: 'b' :: rest => integerIn 2 rest
  | _, '0' :: 'x' :: rest => integerIn 16 rest
  | .v12, '0' :: 'o' :: rest => integerIn 8 rest
  | .v12, _ => integerIn 10 body
  | .v11, '0' :: _ => integerIn 8 body
  | .v11, _ =>
    if body.contains ':' then sexagesimal (PlainForm.splitAt ':' body) else integerIn 10 body

def integerValue (version : Version) (cs : List Char) : Meaning Value :=
  let cs := cs.filter (· != '_')
  let (negative, body) := signOf cs
  if body.isEmpty then refuseScalar .emptyNumber
  else do
    let n ← magnitudeOf version body
    return .int (if negative then -n else n)

/-- A decimal number, or one of the words for numbers that have no digits. -/
def decimalValue (cs : List Char) : Meaning Float :=
  let (negative, digits) := signOf (Number.literal cs)
  let signed (x : Float) := if negative then -x else x
  if PlainForm.isOneOf ["inf", "infinity"] digits then .ok (signed (1.0 / 0.0))
  else if digits == "nan".toList then .ok (0.0 / 0.0)
  else match Number.decimalOf? negative digits with
    | some x => .ok x
    | none => refuseScalar (.notFloat (String.ofList cs))

def floatValue (version : Version) (cs : List Char) : Meaning Value :=
  let cs := lower (cs.filter (· != '_'))
  let (negative, body) := signOf cs
  let signed (x : Float) := if negative then -x else x
  if cs.isEmpty then refuseScalar .emptyNumber
  else if body == ".inf".toList then .ok (.float (signed (1.0 / 0.0)))
  else if body == ".nan".toList then .ok (.float (0.0 / 0.0))
  else if version == .v11 && body.contains ':' then do
    let places ← (PlainForm.splitAt ':' body).mapM decimalValue
    let (total, _) := places.reverse.foldl
      (fun (total, weight) x => (total + x * weight, weight * 60.0)) ((0.0 : Float), (1.0 : Float))
    return .float (signed total)
  else do
    let x ← decimalValue body
    return .float (signed x)

/-- The fraction of a second, rounded to microseconds where the version asks for it. -/
def fractionOf (version : Version) (digits : List Char) : Nat :=
  let cut := Stamp.microseconds digits
  match version, digits.drop 6 with
  | .v12, c :: _ => if Number.digitValue c > 4 then cut + 1 else cut
  | _, _ => cut

def calendarFault {α : Type} (fault : Document.CalendarFault) : Meaning α :=
  refuseScalar (.calendar fault)

/-- A moment; the older version keeps its offset, the newer one brings it to UTC and drops it. -/
def momentValue (version : Version) (t : Document.Moment) : Meaning Value :=
  match version with
  | .v11 => match t.fault? with
    | some fault => calendarFault fault
    | none => .ok (.moment t)
  | .v12 => match { t with offset := none : Document.Moment }.fault? with
    | some fault => calendarFault fault
    | none => match t.inUtc? with
      | some utc => .ok (.moment utc)
      | none => calendarFault .overflow

def timestampValue (version : Version) (cs : List Char) : Meaning Value :=
  match Stamp.read? cs with
  | none => refuseScalar .notTimestamp
  | some stamp => match stamp.clock with
    | none => match stamp.date.fault? with
      | some fault => calendarFault fault
      | none => .ok (.date stamp.date)
    | some clock =>
      let clock := { clock with microsecond := fractionOf version stamp.fraction }
      momentValue version { date := stamp.date, clock, offset := stamp.zone }

def bytesValue (cs : List Char) : Meaning Value :=
  let isAscii (c : Char) := c.toNat < 0x80
  let before := cs.takeWhile isAscii
  let beyond := (cs.dropWhile isAscii).takeWhile fun c => !isAscii c
  if !beyond.isEmpty then .error (.node (.notAscii beyond before.length beyond.length))
  else match Text.decodeBase64 cs with
    | .ok bytes => .ok (.bytes bytes)
    | .error fault => .error (.node (.notBase64 fault))

/-- The value of a scalar's text under a type, if the type is one of text. -/
def scalarValue? (version : Version) (type : String) (content : Content) : Option (Meaning Value) :=
  let cs := content.chars
  match type with
  | "null" => some (.ok .null)
  | "bool" => some (flagValue cs)
  | "int" => some (integerValue version cs)
  | "float" => some (floatValue version cs)
  | "binary" => some (bytesValue cs)
  | "timestamp" => some (timestampValue version cs)
  | "str" => some (.ok (if content.broken then .brokenText else .text (String.ofList cs)))
  | _ => none

end GraphImport.Yaml
