import GraphImport.Document.Value
import GraphImport.Number.Decimal
import GraphImport.Toml.Fault
/-!
# TOML scalars

Strings in four styles, dates and times, and numbers. Of the characters that come next, the
longest scalar is taken.
-/
namespace GraphImport.Toml

open Document (Clock Date Moment Value)
open Text (Cursor)

def refuse {α : Type} (cause : Cause) (c : Cursor) : Except Fault α :=
  .error { cause, index := c.index }

def isBlank (c : Char) : Bool := c == ' ' || c == '\t'

def isGap (c : Char) : Bool := isBlank c || c == '\n'

/-- Control characters other than the tab. -/
def isControl (c : Char) : Bool :=
  (c.toNat < 32 || c.toNat == 127) && c != '\t'

/-- Control characters other than tabs and line feeds. -/
def isLineControl (c : Char) : Bool :=
  isControl c && c != '\n'

/-- The characters before a delimiter, which may hold no control characters, and what follows it. -/
def upTo (delimiter : List Char) (isIllegal : Char → Bool) (c : Cursor) :
    Except Fault (List Char × Cursor) :=
  go c.rest.length [] c
where
  go : Nat → List Char → Cursor → Except Fault (List Char × Cursor)
    | 0, _, c => refuse (.delimiterExpected (String.ofList delimiter)) c
    | fuel + 1, known, d => match d.after? delimiter with
      | some next =>
        let taken := known.reverse
        match taken.find? isIllegal with
        | some found => refuse (.invalidCharacter found)
            { c with index := c.index + taken.findIdx isIllegal }
        | none => .ok (taken, next)
      | none => match d.rest with
        | [] => refuse (.delimiterExpected (String.ofList delimiter)) d
        | x :: _ => go fuel (x :: known) (d.skip 1)

def literalString (c : Cursor) : Except Fault (List Char × Cursor) :=
  upTo ['\x27'] isControl (c.skip 1)

/-- The character of a one-letter escape. -/
def escape? : Char → Option Char
  | 'b' => some '\x08'
  | 't' => some '\t'
  | 'n' => some '\n'
  | 'f' => some '\x0c'
  | 'r' => some '\r'
  | '\x22' => some '\x22'
  | '\\' => some '\\'
  | _ => none

/-- Reads the hexadecimal digits of an escape. -/
def hexEscape (width : Nat) (c : Cursor) : Except Fault (List Char × Cursor) :=
  let digits := c.rest.take width
  let n := Number.natOfDigits 16 digits
  if digits.length != width || !digits.all Number.isHexDigit then refuse .hexExpected c
  else if !n.isValidChar then refuse .noScalarValue (c.skip width)
  else .ok ([Char.ofNat n], c.skip width)

/-- Reads an escape after its backslash, at which a place stands. In text of several lines a
backslash at the end of a line leaves out the line break and the gap after it. -/
def escaped (lines : Bool) (c : Cursor) : Except Fault (List Char × Cursor) :=
  let next := c.skip 2
  match c.rest.drop 1 with
  | 'u' :: _ => hexEscape 4 next
  | 'U' :: _ => hexEscape 8 next
  | x :: _ =>
    if lines && isGap x then
      let atBreak := (c.skip 1).skipWhile isBlank
      match atBreak.peek? with
      | some '\n' => .ok ([], atBreak.skipWhile isGap)
      | some _ => refuse .strayBackslash atBreak
      | none => .ok ([], atBreak)
    else match escape? x with
      | some meant => .ok ([meant], next)
      | none => refuse .strayBackslash next
  | [] => refuse .strayBackslash { c with index := c.index + 2 }

/-- Reads a string with escapes after its opening quotes. -/
def basicFrom (lines : Bool) : Nat → List Char → Cursor → Except Fault (List Char × Cursor)
  | 0, _, c => refuse .unterminatedString c
  | fuel + 1, known, c =>
    match c.rest with
    | [] => refuse .unterminatedString c
    | '\x22' :: '\x22' :: '\x22' :: _ =>
      .ok (known.reverse, c.skip (if lines then 3 else 1))
    | '\x22' :: _ =>
      if lines then basicFrom lines fuel ('\x22' :: known) (c.skip 1)
      else .ok (known.reverse, c.skip 1)
    | '\\' :: _ => do
      let (meant, next) ← escaped lines c
      basicFrom lines fuel (meant.reverse ++ known) next
    | x :: _ =>
      if isControl x && !(lines && x == '\n') then refuse (.illegalCharacter x) c
      else basicFrom lines fuel (x :: known) (c.skip 1)

def basicString (c : Cursor) : Except Fault (List Char × Cursor) :=
  basicFrom false (c.rest.length + 1) [] (c.skip 1)

/-- Up to two quotes that stand before the three closing ones belong to the string. -/
def withQuotes (quote : Char) (read : List Char × Cursor) : List Char × Cursor :=
  let (cs, c) := read
  let extra := ((c.rest.take 2).takeWhile (· == quote)).length
  (cs ++ List.replicate extra quote, c.skip extra)

/-- Reads a string of several lines. A line break right after the opening quotes is left out. -/
def linesString (quote : Char) (c : Cursor) : Except Fault (List Char × Cursor) :=
  let start := c.skip 3
  let start := if start.peek? == some '\n' then start.skip 1 else start
  withQuotes quote <$>
    if quote == '\x27' then upTo [quote, quote, quote] isLineControl start
    else basicFrom true (start.rest.length + 1) [] start

/-- Reads a string in the style of the quotes that come next. -/
def string (quote : Char) (c : Cursor) : Except Fault (List Char × Cursor) :=
  if (c.after? [quote, quote, quote]).isSome then linesString quote c
  else if quote == '\x27' then literalString c
  else basicString c

/-- Two digits within bounds. -/
def two? (low high : Nat) (c : Cursor) : Option (Nat × Cursor) :=
  let digits := c.rest.take 2
  let n := Number.natOfDigits 10 digits
  if digits.length == 2 && digits.all Char.isDigit && low ≤ n && n ≤ high then some (n, c.skip 2)
  else none

def clock? (c : Cursor) : Option (Clock × Cursor) := do
  let (hour, c) ← two? 0 23 c
  let (minute, c) ← two? 0 59 (← c.after? [':'])
  let (second, c) ← two? 0 59 (← c.after? [':'])
  let (digits, next) := match c.rest with
    | '.' :: _ => (c.skip 1).span Char.isDigit
    | _ => ([], c)
  if digits.isEmpty then return ({ hour, minute, second }, c)
  let six := digits.take 6
  let microsecond := Number.natOfDigits 10 (six ++ List.replicate (6 - six.length) '0')
  return ({ hour, minute, second, microsecond }, next)

/-- An offset from UTC: Z, or a sign, hours and minutes. -/
def offset? (c : Cursor) : Option (Int × Cursor) :=
  match c.rest with
  | 'Z' :: _ | 'z' :: _ => some (0, c.skip 1)
  | sign :: _ =>
    if sign != '+' && sign != '-' then none
    else do
      let (hours, c) ← two? 0 23 (c.skip 1)
      let (minutes, c) ← two? 0 59 (← c.after? [':'])
      let total : Int := hours * 60 + minutes
      return (if sign == '-' then -total else total, c)
  | [] => none

def date? (c : Cursor) : Option (Date × Cursor) := do
  let digits := c.rest.take 4
  if digits.length != 4 || !digits.all Char.isDigit then none
  let (month, c) ← two? 1 12 (← (c.skip 4).after? ['-'])
  let (day, c) ← two? 1 31 (← c.after? ['-'])
  return ({ year := Number.natOfDigits 10 digits, month, day }, c)

/-- A date, and a clock time with it if one follows. -/
def moment? (c : Cursor) : Option (Value × Cursor) := do
  let (date, c) ← date? c
  let separated := match c.rest with
    | 'T' :: _ | 't' :: _ | ' ' :: _ => clock? (c.skip 1)
    | _ => none
  match separated with
  | none => return (.date date, c)
  | some (clock, c) => match offset? c with
    | some (minutes, c) => return (.moment { date, clock, offset := some minutes }, c)
    | none => return (.moment { date, clock }, c)

/-- Digits with single underscores between them. -/
def digitRun (isDigit : Char → Bool) : List Char → List Char
  | a :: '_' :: b :: rest =>
    if isDigit a then
      if isDigit b then a :: '_' :: digitRun isDigit (b :: rest) else [a]
    else []
  | a :: rest => if isDigit a then a :: digitRun isDigit rest else []
  | [] => []

/-- An integer in the base that two characters in front name. -/
def based? (c : Cursor) : Option (Value × Cursor) :=
  let read (base : Nat) (isDigit : Char → Bool) : Option (Value × Cursor) :=
    let run := digitRun isDigit (c.rest.drop 2)
    if run.isEmpty then none
    else some (.int (Number.natOfDigits base (run.filter (· != '_'))), c.skip (2 + run.length))
  match c.rest with
  | '0' :: 'x' :: _ => read 16 Number.isHexDigit
  | '0' :: 'b' :: _ => read 2 fun d => d == '0' || d == '1'
  | '0' :: 'o' :: _ => read 8 fun d => '0' ≤ d && d ≤ '7'
  | _ => none

/-- A decimal number: an integer, unless it has places or an exponent. -/
def decimal? (c : Cursor) : Option (Value × Cursor) :=
  let signed := c.rest.head? == some '+' || c.rest.head? == some '-'
  let negative := c.rest.head? == some '-'
  let body := if signed then c.skip 1 else c
  let whole := if body.rest.head? == some '0' then ['0'] else digitRun Char.isDigit body.rest
  if whole.isEmpty then none
  else
    let afterWhole := body.skip whole.length
    let places := match afterWhole.rest with
      | '.' :: rest => digitRun Char.isDigit rest
      | _ => []
    let afterPlaces := if places.isEmpty then afterWhole else afterWhole.skip (places.length + 1)
    let (exponentSign, exponent) := match afterPlaces.rest with
      | e :: rest =>
        if e != 'e' && e != 'E' then ([], [])
        else
          let sign := rest.take 1
          let sign := if sign == ['+'] || sign == ['-'] then sign else []
          (sign, digitRun Char.isDigit (rest.drop sign.length))
      | [] => ([], [])
    let plain (cs : List Char) := cs.filter (· != '_')
    if places.isEmpty && exponent.isEmpty then
      let n : Int := Number.natOfDigits 10 (plain whole)
      some (.int (if negative then -n else n), afterWhole)
    else
      let next :=
        if exponent.isEmpty then afterPlaces
        else afterPlaces.skip (1 + exponentSign.length + exponent.length)
      let n := Number.natOfDigits 10 (plain (whole ++ places))
      let e : Int := Number.natOfDigits 10 (plain exponent)
      let e := if exponentSign == ['-'] then -e else e
      some (.float (Number.ofDecimal negative n (e - (plain places).length)), next)

def infinity : Float := 1.0 / 0.0

def notNumber : Float := 0.0 / 0.0

def words : List (String × Value) :=
  [("true", .bool true), ("false", .bool false),
    ("inf", .float infinity), ("+inf", .float infinity), ("-inf", .float (-infinity)),
    ("nan", .float notNumber), ("+nan", .float notNumber), ("-nan", .float notNumber)]

def word? (c : Cursor) : Option (Value × Cursor) :=
  words.findSome? fun (name, value) => (c.after? name.toList).map fun next => (value, next)

/-- Reads a scalar that is no string. -/
def bareScalar (c : Cursor) : Except Fault (Value × Cursor) :=
  match moment? c with
  | some (.date d, next) =>
    if d.fault?.isSome then refuse .invalidDate c else .ok (.date d, next)
  | some (.moment t, next) =>
    if t.fault?.isSome then refuse .invalidDate c else .ok (.moment t, next)
  | some (value, next) => .ok (value, next)
  | none =>
    let clock := (clock? c).map fun (clock, next) => (Value.clock clock, next)
    let choices := [clock, based? c, decimal? c, word? c]
    match choices.findSome? id with
    | some read => .ok read
    | none => refuse .valueExpected c

end GraphImport.Toml
