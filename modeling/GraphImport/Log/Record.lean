import GraphImport.Json.Printer
import GraphImport.Log.Level
import GraphImport.Log.Template
import GraphImport.Text.Lines
/-!
# Log records

A record has a level, an event and fields. It is written as a document or as a console line: the
level and the event in columns, then the fields by name. A record with a field that the style
cannot show is lost. Times are left to whoever writes the line; `timeMark` holds their place.
-/
namespace GraphImport.Log

open Document (Value)

abbrev Fields := List (String × Value)

structure Record where
  level : Level
  event : String
  fields : Fields := []

inductive Style
  | console
  | json
deriving DecidableEq, Repr

/-- What is written to the log: a document, or a line of text. -/
inductive Line
  | document (fields : Value)
  | text (line : String)

/-- What stands in a console line for the time. -/
def timeMark : String := "<ts>"

/-- Characters that cannot stand bare in a value on the console. -/
def needsQuotes (c : Char) : Bool :=
  [' ', '\t', '=', '\r', '\n', '\x22', '\x27'].contains c

/-- The value of a field on the console. -/
def fieldText : Value → String
  | .text s => if s.toList.any needsQuotes then Text.quoted s else s
  | v => v.display

def padTo (width : Nat) (s : String) : String :=
  s ++ String.ofList (List.replicate (width - s.length) ' ')

def levelWidth : Nat := 9

def eventWidth : Nat := 30

/-- The fields that stand in brackets after the event. -/
def bracketed : List String := ["logger", "logger_name"]

/-- The fields whose text stands below the line. -/
def appended : List String := ["stack", "exception"]

/-- Whether the text of a field below the line can be written. -/
def isAppendable : Option Value → Bool
  | none | some .null | some (.text _) | some .brokenText => true
  | _ => false

def appendedText (fields : Fields) (name : String) : Option String :=
  match fields.lookup name with
  | some (.text s) => some s
  | some .brokenText => some ""
  | _ => none

/-- What stands below the line of a record: a stack and an exception, a rule between them. -/
def below (fields : Fields) : String :=
  let rule := "\n\n" ++ String.ofList (List.replicate 79 '=') ++ "\n"
  match appendedText fields "stack", appendedText fields "exception" with
  | some stack, some exception => s!"\n{stack}{rule}\n{exception}"
  | some stack, none => s!"\n{stack}"
  | none, some exception => s!"\n{exception}"
  | none, none => ""

/-- What can be a key in a document: text, null, flags and numbers, unless they are too long. -/
def isDocumentKey : Value → Bool
  | .text _ | .brokenText | .null | .bool _ | .float _ => true
  | .int n => !Number.isLong n
  | _ => false

/-- The text that a key is written as. -/
def documentKey : Value → Value
  | .null => .text "null"
  | .bool b => .text (if b then "true" else "false")
  | .int n => .text (toString n)
  | .float x => .text (Json.floatText x)
  | v => v

mutual

/-- Whether a value can be written in a document. What a document does not know is displayed
there. -/
def hasDocumentForm : Value → Bool
  | .list items => haveDocumentForms items
  | .map entries => entriesHaveDocumentForms entries
  | .cycle _ => false
  | v => v.isShowable

def haveDocumentForms : List Value → Bool
  | [] => true
  | v :: rest => hasDocumentForm v && haveDocumentForms rest

def entriesHaveDocumentForms : List (Value × Value) → Bool
  | [] => true
  | (key, v) :: rest => isDocumentKey key && hasDocumentForm v && entriesHaveDocumentForms rest

end

mutual

/-- A value as it is written in a document. -/
def documentForm : Value → Value
  | .list items => .list (documentForms items)
  | .map entries => .map (documentEntries entries)
  | .date d => .text (Value.date d).display
  | .clock c => .text (Value.clock c).display
  | .moment t => .text (Value.moment t).display
  | .bytes content => .text (Value.bytes content).display
  | .set members => .text (Value.set members).display
  | v => v

def documentForms : List Value → List Value
  | [] => []
  | v :: rest => documentForm v :: documentForms rest

def documentEntries : List (Value × Value) → List (Value × Value)
  | [] => []
  | (key, v) :: rest => (documentKey key, documentForm v) :: documentEntries rest

end

/-- Whether a style can show a value. -/
def Style.shows : Style → Value → Bool
  | .console => Value.isShowable
  | .json => hasDocumentForm

namespace Record

/-- The text of a record on the console. -/
def consoleText (r : Record) : String :=
  let columns := [timeMark, s!"[{padTo levelWidth r.level.label}]", padTo eventWidth r.event]
  let inBrackets := bracketed.filterMap fun name =>
    (r.fields.lookup name).map fun v => s!"[{v.plain}]"
  let rest := r.fields.filter fun (name, _) => !(bracketed ++ appended).contains name
  let sorted := rest.mergeSort fun a b => a.1 ≤ b.1
  let pairs := sorted.map fun (name, v) => s!"{name}={fieldText v}"
  " ".intercalate (columns ++ inBrackets ++ pairs) ++ below r.fields

/-- Whether a record can be written: its fields can be shown, and on the console those that are text
by their nature are text. -/
def isWritable (r : Record) (style : Style) : Bool :=
  r.fields.all (fun field => style.shows field.2) &&
    (style != .console || appended.all fun name => isAppendable (r.fields.lookup name))

/-- A record as a document. -/
def document (r : Record) : Value :=
  .record (("event", .text r.event) :: ("level", .text r.level.label) ::
    r.fields.map fun field => (field.1, documentForm field.2))

/-- How a record reads in a style, without blanks at the ends of its lines. -/
def rendered (r : Record) : Style → List Line
  | .json => [.document r.document]
  | .console => (Text.trimmedLines r.consoleText).map .text

/-- The lines a record is written as; none if it cannot be written. -/
def lines (r : Record) (style : Style) : List Line :=
  if r.isWritable style then r.rendered style else []

end Record
end GraphImport.Log
