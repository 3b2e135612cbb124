import GraphImport.Document.Value
import GraphImport.Text.Utf8
/-!
# Writing JSON

A document value as JSON on one line, in ASCII: blanks follow commas and colons, and characters
beyond ASCII are written as one or two escaped code units. Values that JSON does not know are
first brought into a form that it does.
-/
namespace GraphImport.Json

open Document (Value)

/-- The escape of one code unit. -/
def unitEscape (n : Nat) : List Char :=
  '\\' :: 'u' :: Text.hexDigits 4 n

/-- How a character stands in a string. -/
def stringChar (c : Char) : List Char :=
  match c with
  | '\x22' => ['\\', '\x22']
  | '\\' => ['\\', '\\']
  | '\n' => ['\\', 'n']
  | '\r' => ['\\', 'r']
  | '\t' => ['\\', 't']
  | '\x08' => ['\\', 'b']
  | '\x0c' => ['\\', 'f']
  | _ =>
    let n := c.toNat
    if 0x20 ≤ n && n < 0x7F then [c]
    else if n < 0x10000 then unitEscape n
    else
      let m := n - 0x10000
      unitEscape (0xD800 + m / 0x400) ++ unitEscape (0xDC00 + m % 0x400)

def stringText (s : String) : List Char :=
  '\x22' :: s.toList.flatMap stringChar ++ ['\x22']

def floatText (x : Float) : String :=
  if x.isNaN then "NaN"
  else if x.isInf then if x < 0 then "-Infinity" else "Infinity"
  else Number.text x

/-- The text of a key: text as it is, other scalars by a form of their own. -/
def keyText : Value → String
  | .text s => s
  | .null => "None"
  | .bool b => if b then "true" else "false"
  | .date d => d.iso
  | .clock c => c.iso
  | .moment t => t.iso
  | .bytes content => (Text.decodeUtf8 content).toOption.getD ""
  | v => v.display

mutual

def chars : Value → List Char
  | .null => "null".toList
  | .bool b => (if b then "true" else "false").toList
  | .int n => (toString n).toList
  | .float x => (floatText x).toList
  | .text s => stringText s
  | .brokenText => stringText ""
  | .date d => stringText d.iso
  | .clock c => stringText c.iso
  | .moment t => stringText t.iso
  | .bytes content => stringText ((Text.decodeUtf8 content).toOption.getD "")
  | .list items => '[' :: itemChars true items ++ [']']
  | .set members => '[' :: itemChars true members ++ [']']
  | .map entries => '\x7b' :: entryChars true entries ++ ['\x7d']
  | .cycle ofList => if ofList then ['[', ']'] else ['\x7b', '\x7d']

def itemChars (first : Bool) : List Value → List Char
  | [] => []
  | v :: rest => (if first then [] else [',', ' ']) ++ chars v ++ itemChars false rest

def entryChars (first : Bool) : List (Value × Value) → List Char
  | [] => []
  | (key, v) :: rest =>
    (if first then [] else [',', ' ']) ++ stringText (keyText key) ++ ':' :: ' ' :: chars v ++
      entryChars false rest

end

def render (v : Value) : String :=
  String.ofList (chars v)

mutual

/-- A value as strict JSON can hold it: null stands for numbers that are not finite. Keys stay as
they are. -/
def finiteForm : Value → Value
  | .float x => if x.isFinite then .float x else .null
  | .list items => .list (finiteForms items)
  | .set members => .set (finiteForms members)
  | .map entries => .map (finiteEntries entries)
  | v => v

def finiteForms : List Value → List Value
  | [] => []
  | v :: rest => finiteForm v :: finiteForms rest

def finiteEntries : List (Value × Value) → List (Value × Value)
  | [] => []
  | (key, v) :: rest => (key, finiteForm v) :: finiteEntries rest

end

/-- Why a value has no JSON form. -/
inductive RenderFault
  | circular
  | notUnicode (fault : Text.Utf8Fault)
deriving DecidableEq, Repr

def RenderFault.message : RenderFault → String
  | .circular => "Circular reference detected (id repeated)"
  | .notUnicode fault =>
    let hex := String.ofList (Text.hexPadded 2 fault.byte.toNat)
    s!"'utf-8' codec can't decode byte 0x{hex} in position {fault.position}: invalid utf-8"

mutual

/-- The first part of a value that has no JSON form. -/
def renderFault? : Value → Option RenderFault
  | .bytes content => match Text.decodeUtf8 content with
    | .ok _ => none
    | .error fault => some (.notUnicode fault)
  | .list items => itemsFault? items
  | .set members => itemsFault? members
  | .map entries => entriesFault? entries
  | .cycle _ => some .circular
  | _ => none

def itemsFault? : List Value → Option RenderFault
  | [] => none
  | v :: rest => (renderFault? v).orElse fun _ => itemsFault? rest

def entriesFault? : List (Value × Value) → Option RenderFault
  | [] => none
  | (_, v) :: rest => (renderFault? v).orElse fun _ => entriesFault? rest

end

end GraphImport.Json
