import GraphImport.Document.Value
import GraphImport.Number.Decimal
import GraphImport.Text.Cursor
/-!
# Reading JSON

A JSON text as a document value. Objects keep the order of their keys, and of equal keys the
last value counts. Beyond the grammar, the words NaN, Infinity and -Infinity are numbers.
-/
namespace GraphImport.Json

open Document (Value)
open Text (Cursor)

/-- Why a text is no JSON, at an index of it. -/
inductive Cause
  | valueExpected
  | nameExpected
  | colonExpected
  | commaExpected
  | unterminatedString
  | controlCharacter
  | invalidEscape
  | invalidUnicodeEscape
  | extraData
  | byteOrderMark
deriving DecidableEq, Repr

structure Fault where
  cause : Cause
  index : Nat
deriving DecidableEq, Repr

def Cause.message : Cause → String
  | .valueExpected => "Expecting value"
  | .nameExpected => "Expecting property name enclosed in double quotes"
  | .colonExpected => "Expecting ':' delimiter"
  | .commaExpected => "Expecting ',' delimiter"
  | .unterminatedString => "Unterminated string starting at"
  | .controlCharacter => "Invalid control character at"
  | .invalidEscape => "Invalid \\escape"
  | .invalidUnicodeEscape => "Invalid \\uXXXX escape"
  | .extraData => "Extra data"
  | .byteOrderMark => "Unexpected UTF-8 BOM (decode using utf-8-sig)"

def Fault.message (text : String) (f : Fault) : String :=
  let (line, column) := Text.lineColumn text.toList f.index
  s!"{f.cause.message}: line {line} column {column} (char {f.index})"

def isBlank (c : Char) : Bool :=
  c == ' ' || c == '\t' || c == '\n' || c == '\r'

def skipBlanks (c : Cursor) : Cursor :=
  c.skipWhile isBlank

/-- The character of a one-letter escape. -/
def escape? : Char → Option Char
  | '\x22' => some '\x22'
  | '\\' => some '\\'
  | '/' => some '/'
  | 'b' => some '\x08'
  | 'f' => some '\x0c'
  | 'n' => some '\n'
  | 'r' => some '\r'
  | 't' => some '\t'
  | _ => none

/-- The code unit of the four hexadecimal digits that come next. -/
def codeUnit? (c : Cursor) : Option Nat :=
  let digits := c.rest.take 4
  if digits.length == 4 && digits.all Number.isHexDigit then
    some (Number.natOfDigits 16 digits)
  else none

def isHighSurrogate (n : Nat) : Bool := 0xD800 ≤ n && n ≤ 0xDBFF

def isLowSurrogate (n : Nat) : Bool := 0xDC00 ≤ n && n ≤ 0xDFFF

/-- The low half that completes a pair, if it comes next as an escape. -/
def lowSurrogate? (c : Cursor) : Option Nat :=
  match c.after? ['\\', 'u'] with
  | none => none
  | some c => (codeUnit? c).filter isLowSurrogate

/-- A string's characters in reverse, `whole` unless an unpaired surrogate was met. -/
structure StringSoFar where
  chars : List Char := []
  whole : Bool := true

def StringSoFar.push (s : StringSoFar) (c : Char) : StringSoFar :=
  { s with chars := c :: s.chars }

def StringSoFar.value (s : StringSoFar) : Value :=
  if s.whole then .text (String.ofList s.chars.reverse) else .brokenText

/-- Reads a string after its opening quote, which stands at `start`. -/
def stringFrom (start : Nat) : Nat → StringSoFar → Cursor → Except Fault (StringSoFar × Cursor)
  | 0, _, _ => .error ⟨.unterminatedString, start⟩
  | fuel + 1, soFar, c =>
    match c.rest with
    | [] => .error ⟨.unterminatedString, start⟩
    | '\x22' :: _ => .ok (soFar, c.skip 1)
    | '\\' :: [] => .error ⟨.unterminatedString, start⟩
    | '\\' :: 'u' :: _ =>
      let digits := c.skip 2
      match codeUnit? digits with
      | none => .error ⟨.invalidUnicodeEscape, c.index + 1⟩
      | some n =>
        let next := digits.skip 4
        if isHighSurrogate n then
          match lowSurrogate? next with
          | some low =>
            let point := 0x10000 + (n - 0xD800) * 0x400 + (low - 0xDC00)
            stringFrom start fuel (soFar.push (Char.ofNat point)) (next.skip 6)
          | none => stringFrom start fuel { soFar with whole := false } next
        else if isLowSurrogate n then stringFrom start fuel { soFar with whole := false } next
        else stringFrom start fuel (soFar.push (Char.ofNat n)) next
    | '\\' :: e :: _ =>
      match escape? e with
      | some x => stringFrom start fuel (soFar.push x) (c.skip 2)
      | none => .error ⟨.invalidEscape, c.index⟩
    | x :: _ =>
      if x.toNat < 0x20 then .error ⟨.controlCharacter, c.index⟩
      else stringFrom start fuel (soFar.push x) (c.skip 1)

/-- Reads a string whose opening quote comes next. -/
def string (c : Cursor) : Except Fault (Value × Cursor) :=
  (fun (s, c) => (s.value, c)) <$> stringFrom c.index (c.rest.length + 1) {} (c.skip 1)

/-- The places of a number: a point and at least one digit. -/
def places (c : Cursor) : List Char × Cursor :=
  match c.rest with
  | '.' :: d :: _ => if d.isDigit then (c.skip 1).span Char.isDigit else ([], c)
  | _ => ([], c)

/-- The exponent of a number: the letter, a sign or none, and at least one digit. -/
def exponent (c : Cursor) : Option Int × Cursor :=
  let mark (e : Char) := e == 'e' || e == 'E'
  let from? (skipped : Nat) : Option Int × Cursor :=
    let (digits, next) := (c.skip skipped).span Char.isDigit
    if digits.isEmpty then (none, c) else (some (Number.natOfDigits 10 digits), next)
  match c.rest with
  | e :: '-' :: _ =>
    if mark e then
      let (n?, next) := from? 2
      (n?.map fun n => -n, next)
    else (none, c)
  | e :: '+' :: _ => if mark e then from? 2 else (none, c)
  | e :: _ => if mark e then from? 1 else (none, c)
  | [] => (none, c)

/-- Reads a number, an integer unless it has places or an exponent. -/
def number? (c : Cursor) : Option (Value × Cursor) :=
  let (negative, c) := match c.after? ['-'] with
    | some next => (true, next)
    | none => (false, c)
  let (whole, c) := match c.rest with
    | '0' :: _ => (['0'], c.skip 1)
    | _ => c.span Char.isDigit
  if whole.isEmpty then none
  else
    let (fraction, c) := places c
    let (e?, c) := exponent c
    if fraction.isEmpty && e?.isNone then
      let n : Int := Number.natOfDigits 10 whole
      some (.int (if negative then -n else n), c)
    else
      let n := Number.natOfDigits 10 (whole ++ fraction)
      some (.float (Number.ofDecimal negative n (e?.getD 0 - fraction.length)), c)

def infinity : Float := 1.0 / 0.0

def constants : List (String × Value) :=
  [("null", .null), ("true", .bool true), ("false", .bool false), ("NaN", .float (0.0 / 0.0)),
    ("Infinity", .float infinity), ("-Infinity", .float (-infinity))]

/-- Reads a constant or a number. -/
def atom (c : Cursor) : Except Fault (Value × Cursor) :=
  let constant? := constants.findSome? fun (name, value) =>
    (c.after? name.toList).map fun next => (value, next)
  match constant?.orElse fun _ => number? c with
  | some read => .ok read
  | none => .error ⟨.valueExpected, c.index⟩

mutual

/-- Reads one value; every nested value and every further item uses up fuel. -/
def value : Nat → Cursor → Except Fault (Value × Cursor)
  | 0, c => .error ⟨.valueExpected, c.index⟩
  | fuel + 1, c =>
    match c.peek? with
    | some '\x22' => string c
    | some '[' =>
      let next := skipBlanks (c.skip 1)
      match next.peek? with
      | some ']' => .ok (.list [], next.skip 1)
      | _ => items fuel [] next
    | some '\x7b' =>
      let next := skipBlanks (c.skip 1)
      match next.peek? with
      | some '\x7d' => .ok (.map [], next.skip 1)
      | _ => fields fuel [] next
    | _ => atom c

/-- Reads the items of a list from one of them on. -/
def items : Nat → List Value → Cursor → Except Fault (Value × Cursor)
  | 0, _, c => .error ⟨.valueExpected, c.index⟩
  | fuel + 1, known, c => do
    let (item, c) ← value fuel c
    let c := skipBlanks c
    match c.peek? with
    | some ']' => .ok (.list (item :: known).reverse, c.skip 1)
    | some ',' => items fuel (item :: known) (skipBlanks (c.skip 1))
    | _ => .error ⟨.commaExpected, c.index⟩

/-- Reads the fields of an object from one of them on. -/
def fields : Nat → List (Value × Value) → Cursor → Except Fault (Value × Cursor)
  | 0, _, c => .error ⟨.nameExpected, c.index⟩
  | fuel + 1, known, c => do
    if c.peek? != some '\x22' then .error ⟨.nameExpected, c.index⟩
    let (name, c) ← string c
    let c := skipBlanks c
    if c.peek? != some ':' then .error ⟨.colonExpected, c.index⟩
    let (item, c) ← value fuel (skipBlanks (c.skip 1))
    let c := skipBlanks c
    let known := Value.put known name item
    match c.peek? with
    | some '\x7d' => .ok (.map known, c.skip 1)
    | some ',' => fields fuel known (skipBlanks (c.skip 1))
    | _ => .error ⟨.commaExpected, c.index⟩

end

/-- Reads a whole text as one value between blanks. -/
def read (text : String) : Except Fault Value := do
  let start := Cursor.ofString text
  if start.peek? == some '\ufeff' then throw ⟨.byteOrderMark, 0⟩
  let c := skipBlanks start
  let (v, c) ← value (2 * c.rest.length + 2) c
  let c := skipBlanks c
  if c.rest.isEmpty then .ok v else .error ⟨.extraData, c.index⟩

end GraphImport.Json
