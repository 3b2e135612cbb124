import GraphImport.Json.Reader

/-!
# JSON as it is written

Every text of the JSON grammar, with all that the grammar leaves open: the blanks between tokens,
and the form of a number and of each character in a string.
-/

namespace GraphImport.Json

open Document (Value)

/-- Blanks between two tokens, perhaps none. -/
structure Gap where
  chars : List Char
  blank : ∀ c ∈ chars, isBlank c = true

/-- The four hexadecimal digits of a code unit. -/
structure CodeUnit where
  digits : List Char
  length : digits.length = 4
  hex : ∀ c ∈ digits, Number.isHexDigit c = true

def CodeUnit.value (u : CodeUnit) : Nat :=
  Number.natOfDigits 16 u.digits

/-- One character of a string, as it stands or escaped. -/
inductive Piece
  | char (c : Char) (h : 0x20 ≤ c.toNat ∧ c ≠ '\x22' ∧ c ≠ '\\')
  | letter (e c : Char) (h : escape? e = some c)
  | unit (u : CodeUnit) (high : isHighSurrogate u.value = false)
      (low : isLowSurrogate u.value = false)
  | pair (u v : CodeUnit) (high : isHighSurrogate u.value = true)
      (low : isLowSurrogate v.value = true)

def Piece.chars : Piece → List Char
  | .char c _ => [c]
  | .letter e _ _ => ['\\', e]
  | .unit u _ _ => '\\' :: 'u' :: u.digits
  | .pair u v _ _ => '\\' :: 'u' :: u.digits ++ '\\' :: 'u' :: v.digits

def Piece.value : Piece → Char
  | .char c _ => c
  | .letter _ c _ => c
  | .unit u _ _ => Char.ofNat u.value
  | .pair u v _ _ => Char.ofNat (0x10000 + (u.value - 0xD800) * 0x400 + (v.value - 0xDC00))

/-- A string between its quotes. -/
def quotedChars (s : List Piece) : List Char :=
  '\x22' :: s.flatMap Piece.chars ++ ['\x22']

def stringOf (s : List Piece) : String :=
  String.ofList (s.map Piece.value)

structure Exponent where
  letter : Char
  sign : Option Char
  digits : List Char
  isLetter : letter = 'e' ∨ letter = 'E'
  isSign : ∀ c ∈ sign, c = '+' ∨ c = '-'
  nonempty : digits ≠ []
  isDigit : ∀ c ∈ digits, c.isDigit = true

def Exponent.chars (e : Exponent) : List Char :=
  e.letter :: e.sign.toList ++ e.digits

def Exponent.value (e : Exponent) : Int :=
  if e.sign = some '-' then -Number.natOfDigits 10 e.digits else Number.natOfDigits 10 e.digits

/-- A number: a sign or none, digits of which the first is no zero unless it is the only one, and
perhaps places and an exponent. -/
structure Numeral where
  negative : Bool
  whole : List Char
  places : List Char
  exponent : Option Exponent
  nonempty : whole ≠ []
  wholeDigit : ∀ c ∈ whole, c.isDigit = true
  leadingZero : whole.head? = some '0' → whole = ['0']
  placesDigit : ∀ c ∈ places, c.isDigit = true

namespace Numeral

def placesChars (n : Numeral) : List Char :=
  if n.places = [] then [] else '.' :: n.places

def exponentChars (n : Numeral) : List Char :=
  n.exponent.elim [] Exponent.chars

/-- What is written after the sign. -/
def unsignedChars (n : Numeral) : List Char :=
  n.whole ++ n.placesChars ++ n.exponentChars

def chars (n : Numeral) : List Char :=
  if n.negative then '-' :: n.unsignedChars else n.unsignedChars

/-- A number is an integer unless it has places or an exponent. -/
def value (n : Numeral) : Value :=
  if n.places = [] ∧ n.exponent = none then
    .int (if n.negative then -Number.natOfDigits 10 n.whole else Number.natOfDigits 10 n.whole)
  else .float (Number.ofDecimal n.negative (Number.natOfDigits 10 (n.whole ++ n.places))
    (n.exponent.elim 0 Exponent.value - n.places.length))

end Numeral

mutual

/-- A value as it is written. -/
inductive Written
  | null
  | bool (b : Bool)
  | number (n : Numeral)
  | string (s : List Piece)
  | emptyList (gap : Gap)
  | list (before : Gap) (items : Items)
  | emptyRecord (gap : Gap)
  | record (before : Gap) (fields : Fields)

/-- The items of a list, each with the blanks around it. -/
inductive Items
  | last (item : Written) (after : Gap)
  | more (item : Written) (after before : Gap) (rest : Items)

/-- The fields of a record: names, blanks around the colon, and values with the blanks around
them. -/
inductive Fields
  | last (name : List Piece) (colon : Gap) (before : Gap) (item : Written) (after : Gap)
  | more (name : List Piece) (colon : Gap) (before : Gap) (item : Written) (after next : Gap)
      (rest : Fields)

end

mutual

def Written.chars : Written → List Char
  | .null => "null".toList
  | .bool b => if b then "true".toList else "false".toList
  | .number n => n.chars
  | .string s => quotedChars s
  | .emptyList gap => '[' :: gap.chars ++ [']']
  | .list before items => '[' :: before.chars ++ items.chars ++ [']']
  | .emptyRecord gap => '\x7b' :: gap.chars ++ ['\x7d']
  | .record before fields => '\x7b' :: before.chars ++ fields.chars ++ ['\x7d']

def Items.chars : Items → List Char
  | .last item after => item.chars ++ after.chars
  | .more item after before rest =>
    item.chars ++ after.chars ++ ',' :: before.chars ++ rest.chars

def Fields.chars : Fields → List Char
  | .last name colon before item after =>
    quotedChars name ++ colon.chars ++ ':' :: before.chars ++ item.chars ++ after.chars
  | .more name colon before item after next rest =>
    quotedChars name ++ colon.chars ++ ':' :: before.chars ++ item.chars ++ after.chars ++
      ',' :: next.chars ++ rest.chars

end

mutual

/-- The value that is meant. -/
def Written.value : Written → Value
  | .null => .null
  | .bool b => .bool b
  | .number n => n.value
  | .string s => .text (stringOf s)
  | .emptyList _ => .list []
  | .list _ items => .list items.values
  | .emptyRecord _ => .map []
  | .record _ fields => .map (Value.ofEntries fields.entries)

def Items.values : Items → List Value
  | .last item _ => [item.value]
  | .more item _ _ rest => item.value :: rest.values

def Fields.entries : Fields → List (Value × Value)
  | .last name _ _ item _ => [(.text (stringOf name), item.value)]
  | .more name _ _ item _ _ rest => (.text (stringOf name), item.value) :: rest.entries

end

/-- A whole text: a value between blanks. -/
structure Page where
  before : Gap
  root : Written
  after : Gap

def Page.chars (p : Page) : List Char :=
  p.before.chars ++ p.root.chars ++ p.after.chars

end GraphImport.Json
