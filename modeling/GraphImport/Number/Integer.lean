import GraphImport.Number.Decimal
import GraphImport.Text.Blank
import GraphImport.Text.Quoted
/-!
# Integers from text

An integer may have white space around it, a sign, and a prefix that names its base. The decimal
digits of all scripts count as digits.
-/
namespace GraphImport.Number

/-- Why a text is no integer. -/
inductive IntegerFault
  | malformed
  | long (digits : Nat)
deriving DecidableEq, Repr

def IntegerFault.message (base : Nat) (text : String) : IntegerFault → String
  | .malformed =>
    let shown := String.ofList ((Text.quoted text).toList.take 200)
    s!"invalid literal for int() with base {base}: {shown}"
  | .long digits =>
    s!"Exceeds the limit ({maxDigits} digits) for integer string conversion: value has {digits} " ++
      "digits; use sys.set_int_max_str_digits() to increase the limit"

/-- The zeros of Unicode 15.0, each of which the other digits of its script follow. -/
def zeros : List Nat := [
  0x30, 0x660, 0x6F0, 0x7C0, 0x966, 0x9E6, 0xA66, 0xAE6, 0xB66, 0xBE6, 0xC66, 0xCE6, 0xD66, 0xDE6,
  0xE50, 0xED0, 0xF20, 0x1040, 0x1090, 0x17E0, 0x1810, 0x1946, 0x19D0, 0x1A80, 0x1A90, 0x1B50,
  0x1BB0, 0x1C40, 0x1C50, 0xA620, 0xA8D0, 0xA900, 0xA9D0, 0xA9F0, 0xAA50, 0xABF0, 0xFF10, 0x104A0,
  0x10D30, 0x11066, 0x110F0, 0x11136, 0x111D0, 0x112F0, 0x11450, 0x114D0, 0x11650, 0x116C0, 0x11730,
  0x118E0, 0x11950, 0x11C50, 0x11D50, 0x11DA0, 0x11F50, 0x16A60, 0x16AC0, 0x16B50, 0x1D7CE, 0x1D7D8,
  0x1D7E2, 0x1D7EC, 0x1D7F6, 0x1E140, 0x1E2F0, 0x1E4F0, 0x1E950, 0x1FBF0]

/-- A decimal digit of any script as a digit of ASCII. -/
def plainDigit (c : Char) : Char :=
  match zeros.find? fun first => first ≤ c.toNat && c.toNat < first + 10 with
  | some first => Char.ofNat (48 + (c.toNat - first))
  | none => c

/-- The characters of a number without the white space around them. -/
def literal (cs : List Char) : List Char :=
  (Text.trimWhite cs).map plainDigit

/-- A sign and the rest. -/
def signed (cs : List Char) : Bool × List Char :=
  match cs with
  | '-' :: rest => (true, rest)
  | '+' :: rest => (false, rest)
  | _ => (false, cs)

/-- The letters that name a base after a zero. -/
def baseLetters : Nat → List Char
  | 2 => ['b', 'B']
  | 8 => ['o', 'O']
  | 16 => ['x', 'X']
  | _ => []

def withoutPrefix (base : Nat) : List Char → List Char
  | '0' :: letter :: rest =>
    if (baseLetters base).contains letter then rest else '0' :: letter :: rest
  | cs => cs

/-- The integer that a text without underscores writes in a base. In base ten the number of its
digits is limited. -/
def integerOf (base : Nat) (cs : List Char) : Except IntegerFault Int :=
  let (negative, body) := signed (literal cs)
  let body := withoutPrefix base body
  let digits := body.takeWhile fun c => isHexDigit c && digitValue c < base
  if base == 10 && digits.length > maxDigits then .error (.long digits.length)
  else if digits.isEmpty || digits.length < body.length then .error .malformed
  else
    let n : Int := natOfDigits base digits
    .ok (if negative then -n else n)

end GraphImport.Number
