import GraphImport.Document.Calendar
import GraphImport.Number.Decimal
import GraphImport.Number.Shortest
import GraphImport.Text.Quoted
/-!
# Document values

What a parsed document holds: scalars, lists, and mappings whose entries keep their order. Keys
may be any scalar. A value has a kind, by which messages name it, and a display form, in which
messages show it.
-/
namespace GraphImport.Document

/-- A value of a document. Text with an unpaired surrogate has no character sequence and is kept
apart as `brokenText`; `cycle` stands for a list or mapping inside itself. -/
inductive Value
  | null
  | bool (b : Bool)
  | int (n : Int)
  | float (x : Float)
  | text (s : String)
  | brokenText
  | date (d : Date)
  | clock (c : Clock)
  | moment (t : Moment)
  | bytes (content : List UInt8)
  | list (items : List Value)
  | set (members : List Value)
  | map (entries : List (Value × Value))
  | cycle (ofList : Bool)
deriving Inhabited

namespace Value

/-- A mapping with text keys. -/
def record (fields : List (String × Value)) : Value :=
  .map (fields.map fun (name, value) => (.text name, value))

def ofText? : Option String → Value
  | none => .null
  | some s => .text s

/-- The name of a value's kind. -/
def kind : Value → String
  | .null => "NoneType"
  | .bool _ => "bool"
  | .int _ => "int"
  | .float _ => "float"
  | .text _ | .brokenText => "str"
  | .date _ => "date"
  | .clock _ => "time"
  | .moment _ => "datetime"
  | .bytes _ => "bytes"
  | .list _ => "list"
  | .set _ => "set"
  | .map _ => "dict"
  | .cycle ofList => if ofList then "list" else "dict"

/-- Whether two values are the same as keys: booleans and floats count as the number they
equal. -/
def sameKey : Value → Value → Bool
  | .null, .null => true
  | .text s, .text t => s == t
  | .date d, .date e => d == e
  | .clock c, .clock d => c == d
  | .moment t, .moment u => t == u
  | .bytes a, .bytes b => a == b
  | .float x, .float y => x == y
  | .float x, w => (Number.integer? x).isSome && Number.integer? x == number? w && finite x
  | v, .float y => (Number.integer? y).isSome && Number.integer? y == number? v && finite y
  | v, w => (number? v).isSome && number? v == number? w
where
  number? : Value → Option Int
    | .bool b => some (if b then 1 else 0)
    | .int n => some n
    | _ => none
  finite (x : Float) : Bool := !x.isNaN && !x.isInf

/-- Whether a value is null, false, zero or empty. -/
def isEmpty : Value → Bool
  | .null => true
  | .bool b => !b
  | .int n => n == 0
  | .float x => x == 0.0
  | .text s => s == ""
  | .bytes content => content.isEmpty
  | .list items | .set items => items.isEmpty
  | .map entries => entries.isEmpty
  | .brokenText | .date _ | .clock _ | .moment _ | .cycle _ => false

/-- The value of a text key; of equal keys the last entry counts. -/
def find? (name : String) (entries : List (Value × Value)) : Option Value :=
  (entries.reverse.find? fun (key, _) => match key with
    | .text s => s == name
    | _ => false).map (·.2)

/-- Puts a value under a key, at the place the key already has or else at the end. -/
def put (entries : List (Value × Value)) (key value : Value) : List (Value × Value) :=
  if entries.any fun (k, _) => k.sameKey key then
    entries.map fun (k, v) => if k.sameKey key then (k, value) else (k, v)
  else entries ++ [(key, value)]

/-- Entries in which each key stands once, at its first place with its last value. -/
def ofEntries (entries : List (Value × Value)) : List (Value × Value) :=
  entries.foldl (fun known (key, value) => put known key value) []

mutual

/-- The display form of a value, as messages show it. A value with an integer that is too long has
none, as `isShowable` tells; its digits are given here all the same. -/
def display : Value → String
  | .null => "None"
  | .bool b => if b then "True" else "False"
  | .int n => toString n
  | .float x => Number.text x
  | .text s => Text.quoted s
  | .brokenText => "''"
  | .date d => d.term
  | .clock c => c.term
  | .moment t => t.term
  | .bytes content => Text.quotedBytes content
  | .list items => "[" ++ ", ".intercalate (displayAll items) ++ "]"
  | .set members => if members.isEmpty then "set()"
    else "\x7b" ++ ", ".intercalate (displayAll members) ++ "\x7d"
  | .map entries => "\x7b" ++ ", ".intercalate (displayEntries entries) ++ "\x7d"
  | .cycle ofList => if ofList then "[...]" else "\x7b...\x7d"

def displayAll : List Value → List String
  | [] => []
  | v :: rest => v.display :: displayAll rest

def displayEntries : List (Value × Value) → List String
  | [] => []
  | (k, v) :: rest => s!"{k.display}: {v.display}" :: displayEntries rest

end

mutual

/-- Whether a value has a display form: no integer in it is too long. -/
def isShowable : Value → Bool
  | .int n => !Number.isLong n
  | .list items | .set items => areShowable items
  | .map entries => entriesShowable entries
  | _ => true

def areShowable : List Value → Bool
  | [] => true
  | v :: rest => v.isShowable && areShowable rest

def entriesShowable : List (Value × Value) → Bool
  | [] => true
  | (k, v) :: rest => k.isShowable && v.isShowable && entriesShowable rest

end

/-- The plain form of a value: text and times stand as they are, anything else as displayed. -/
def plain : Value → String
  | .text s => s
  | .date d => d.iso
  | .clock c => c.iso
  | .moment t => t.plain
  | v => v.display

end Value
end GraphImport.Document
