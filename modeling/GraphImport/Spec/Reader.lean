import GraphImport.Spec.Basic
import GraphImport.Spec.Flaw
import GraphImport.Text.Blank
import GraphImport.Text.Utf8
/-!
# Reading a document as a job spec

Each field of a model has a reader that says which values it takes. Text is never made from
anything else, flags and integers also take numbers and suitable text, and words must belong to
their vocabulary. Unknown fields are ignored and absent fields take their default.
-/
namespace GraphImport.Spec

open Document (Value)

/-- Reads a value, or collects its flaws. -/
abbrev Reader (α : Type) := Value → Checked α

namespace Reader

variable {α β : Type}

/-- Text, or bytes that are UTF-8. -/
def text : Reader String
  | .text s => .ok s
  | .brokenText => .mismatch .notUnicode
  | .bytes content => match Text.decodeUtf8 content with
    | .ok s => .ok s
    | .error _ => .mismatch .notUnicode
  | _ => .mismatch .notText

/-- Null stands for absence. -/
def nullable (reader : Reader α) : Reader (Option α)
  | .null => .ok none
  | v => (reader v).map some

/-- A word of a vocabulary. -/
def member [Vocabulary α] : Reader α := fun v =>
  let word? := match v with
    | .text s => some s
    | .bytes content => (Text.decodeUtf8 content).toOption
    | _ => none
  match word?.bind ofWord? with
  | some member => .ok member
  | none => .mismatch (.notMember ((Vocabulary.members : List α).map word))

/-- Signed words of 64 bits stay below this bound, `2 ^ 63`. -/
def wordBound : Int := 0x8000000000000000

def isWord64 (n : Int) : Bool :=
  -wordBound ≤ n && n < wordBound

def flagOfInt (n : Int) : Checked Bool :=
  if n == 0 then .ok false
  else if n == 1 then .ok true
  else if isWord64 n then .mismatch .unclearFlag
  else .mismatch .notFlag

/-- The least word is not taken from a floating-point number. -/
def flagOfWhole (n : Int) : Checked Bool :=
  if n == -wordBound then .mismatch .notFlag else flagOfInt n

def flagOfText (s : String) : Checked Bool :=
  let lower := s.map Char.toLower
  if ["0", "off", "f", "false", "n", "no"].contains lower then .ok false
  else if ["1", "on", "t", "true", "y", "yes"].contains lower then .ok true
  else .mismatch .unclearFlag

def flag : Reader Bool
  | .bool b => .ok b
  | .int n => flagOfInt n
  | .float x =>
    if x.isNaN || x.isInf then .mismatch .notFlag
    else match Number.integer? x with
      | some n => flagOfWhole n
      | none => .mismatch .notFlag
  | .text s => flagOfText s
  | .brokenText => .mismatch .unclearFlag
  | .bytes content => match Text.decodeUtf8 content with
    | .ok s => flagOfText s
    | .error _ => .mismatch .unclearFlag
  | _ => .mismatch .notFlag

/-- Digits with single underscores between them. -/
def digitsOf? : List Char → Option (List Char)
  | [] => none
  | [c] => if c.isDigit then some [c] else none
  | c :: '_' :: rest => if c.isDigit then (digitsOf? rest).map (c :: ·) else none
  | c :: rest => if c.isDigit then (digitsOf? rest).map (c :: ·) else none

def naturalOf (digits : List Char) : Nat :=
  digits.foldl (fun n c => 10 * n + (c.toNat - 48)) 0

/-- The integer a text writes: a sign, digits with single underscores between them, and a
point with zeros only. -/
def integerOfChars? (cs : List Char) : Option Int :=
  let (negative, body) := match cs with
    | '+' :: rest => (false, rest)
    | '-' :: rest => (true, rest)
    | _ => (false, cs)
  let whole := body.takeWhile (· != '.')
  let places := body.dropWhile (· != '.')
  if places.isEmpty || (places.length > 1 && places.tail.all (· == '0')) then
    (digitsOf? whole).map fun digits =>
      if negative then -(naturalOf digits : Int) else naturalOf digits
  else none

/-- The most characters an integer may have as text. -/
def maxIntegerLength : Nat := 4300

def integerOfText (s : String) : Checked Int :=
  let cs := Text.trimWhite s.toList
  if cs.length > maxIntegerLength then .mismatch .oversizedInteger
  else match integerOfChars? cs with
    | some n => .ok n
    | none => .mismatch .unclearInteger

def integer : Reader Int
  | .bool b => .ok (if b then 1 else 0)
  | .int n => .ok n
  | .float x =>
    if x.isNaN || x.isInf then .mismatch .notFinite
    else match Number.integer? x with
      | some n => if -wordBound < n && n < wordBound then .ok n else .mismatch .oversizedInteger
      | none => .mismatch .fractional
  | .text s => integerOfText s
  | .brokenText => .mismatch .unclearInteger
  | .bytes content => match Text.decodeUtf8 content with
    | .ok s => integerOfText s
    | .error _ => .mismatch .unclearInteger
  | _ => .mismatch .notInteger

/-- Reads the items of a list from an index on. -/
def itemsFrom (reader : Reader α) (index : Nat) : List Value → Checked (List α)
  | [] => .ok []
  | v :: rest => List.cons <$> (reader v).under (.item index) <*> itemsFrom reader (index + 1) rest

/-- A list, or a set taken as one. -/
def items (reader : Reader α) : Reader (List α)
  | .list values => itemsFrom reader 0 values
  | .set values => itemsFrom reader 0 values
  | .cycle true => .ok []
  | _ => .mismatch .notList

/-- How messages show a key that is no text. -/
def keyText : Value → String
  | .bool b => if b then "1" else "0"
  | v => v.display

/-- Reads the keys of a mapping as text. -/
def entries : List (Value × Value) → Checked (List (String × Value))
  | [] => .ok []
  | (key, value) :: rest =>
    let name := ((text key).under .entryKey).under (.entry (keyText key))
    List.cons <$> (name.map fun k => (k, value)) <*> entries rest

/-- A mapping with text keys and any values. -/
def optionMap : Reader (List (String × Value))
  | .map fields => entries fields
  | .cycle false => .ok []
  | _ => .mismatch .notMapping

/-- A model, read field by field. -/
def model (title : String) (fields : List (Value × Value) → Checked α) : Reader α
  | .map entries => fields entries
  | .cycle false => fields []
  | _ => .mismatch (.notModel title)

/-- A field that must be present. -/
def required (name : String) (reader : Reader α) (entries : List (Value × Value)) : Checked α :=
  match Value.find? name entries with
  | some v => (reader v).under (.field name)
  | none => (Checked.mismatch .missing).under (.field name)

/-- A field with a default. -/
def withDefault (name : String) (reader : Reader α) (default : α) (entries : List (Value × Value)) :
    Checked α :=
  match Value.find? name entries with
  | some v => (reader v).under (.field name)
  | none => .ok default

end Reader

open Reader

def Source.read : Reader Source := model "Source" fun e =>
  Source.mk <$> withDefault "name" text "" e <*> withDefault "query" (nullable text) none e

def Mapping.read : Reader Mapping := model "Mapping" fun e =>
  Mapping.mk <$> required "name" text e
    <*> withDefault "field" (nullable text) none e
    <*> withDefault "constant" (nullable text) none e
    <*> required "fragment_type" member e
    <*> withDefault "role" member .property e
    <*> withDefault "type" (nullable member) none e
    <*> withDefault "indexed" flag false e
    <*> withDefault "unique" flag false e
    <*> withDefault "mandatory" flag false e

def Aggregation.read : Reader Aggregation := model "Aggregation" fun e =>
  Aggregation.mk <$> withDefault "field" (nullable text) none e <*> withDefault "expression" text "" e

def Transform.read : Reader Transform := model "Transform" fun e =>
  Transform.mk <$> withDefault "sql" (nullable text) none e
    <*> withDefault "group" flag false e
    <*> withDefault "aggregations" (items Aggregation.read) [] e
    <*> withDefault "order_by" (nullable text) none e
    <*> withDefault "where" (nullable text) none e
    <*> withDefault "limit" integer (-1) e

def Target.read : Reader Target := model "Target" fun e =>
  Target.mk <$> withDefault "name" text "" e
    <*> withDefault "active" flag true e
    <*> required "type" member e
    <*> withDefault "source" text "" e
    <*> withDefault "custom_query" (nullable text) none e
    <*> withDefault "mappings" (items Mapping.read) [] e
    <*> withDefault "transform" Transform.read {} e
    <*> withDefault "save_mode" member .append e
    <*> withDefault "edge_nodes_match_mode" member .matching e

def Action.read : Reader Action := model "Action" fun e =>
  Action.mk <$> withDefault "name" text "" e
    <*> required "type" member e
    <*> withDefault "options" optionMap [] e
    <*> withDefault "execute_after" (nullable member) none e
    <*> withDefault "execute_after_name" (nullable text) none e

def JobSpec.read : Reader JobSpec := model "JobSpec" fun e =>
  JobSpec.mk <$> withDefault "sources" (items Source.read) [] e
    <*> withDefault "targets" (items Target.read) [] e
    <*> withDefault "actions" (items Action.read) [] e

/-- Why a document gives no job spec. -/
inductive SpecError
  | notMapping (origin kind : String)
  | flawed (flaws : List Flaw)

def SpecError.message : SpecError → String
  | .notMapping origin kind => s!"Job spec {origin} must be a mapping, got {kind}"
  | .flawed flaws => "\n".intercalate (flaws.map Flaw.message)

/-- The name of a document that comes from no file. -/
def unnamedOrigin : String := "<memory>"

/-- The job spec a document holds. An empty document holds the empty spec. -/
def JobSpec.ofDocument (origin : String) (raw : Value) : Except SpecError JobSpec :=
  let spec (v : Value) := match JobSpec.read v with
    | .ok spec => .ok spec
    | .flawed flaws => .error (.flawed flaws)
  match raw with
  | .null => spec (.map [])
  | .map _ | .cycle false => spec raw
  | _ => .error (.notMapping origin raw.kind)

end GraphImport.Spec
