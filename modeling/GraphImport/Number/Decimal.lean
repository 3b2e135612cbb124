/-!
# Numbers from decimal text

Digit strings in any base up to sixteen as natural numbers, and decimal numbers rounded to the
nearest floating-point number, ties to even.
-/
namespace GraphImport.Number

def digitValue (c : Char) : Nat :=
  let n := c.toNat
  if 48 ≤ n && n ≤ 57 then n - 48
  else if 97 ≤ n && n ≤ 102 then n - 87
  else if 65 ≤ n && n ≤ 70 then n - 55
  else 0

def isHexDigit (c : Char) : Bool :=
  c.isDigit || ('a' ≤ c && c ≤ 'f') || ('A' ≤ c && c ≤ 'F')

/-- The value of a string of digits in a base. -/
def natOfDigits (base : Nat) (digits : List Char) : Nat :=
  digits.foldl (fun n c => base * n + digitValue c) 0

/-- The most decimal digits an integer may have where it is read from text or shown as text. -/
def maxDigits : Nat := 4300

/-- Whether an integer has too many digits to be shown in decimal. -/
def isLong (n : Int) : Bool :=
  maxDigits < (Nat.toDigits 10 n.natAbs).length

/-- The floating-point number nearest to `± n * 10 ^ e`. -/
def ofDecimal (negative : Bool) (n : Nat) (e : Int) : Float :=
  let size : Int := (Nat.toDigits 10 n).length + e
  let x : Float :=
    if n == 0 || size < -400 then 0.0
    else if size > 400 then 1.0 / 0.0
    else if e < 0 then Float.ofScientific n true e.natAbs
    else Float.ofScientific n false e.natAbs
  if negative then -x else x

def ofInt (n : Int) : Float :=
  ofDecimal (n < 0) n.natAbs 0

/-- A signed exponent, of digits only. -/
def exponentOf? (cs : List Char) : Option Int :=
  let (negative, digits) := match cs with
    | '-' :: rest => (true, rest)
    | '+' :: rest => (false, rest)
    | _ => (false, cs)
  if digits.isEmpty || !digits.all Char.isDigit then none
  else
    let n := natOfDigits 10 digits
    some (if negative then -(n : Int) else n)

/-- Reads digits with an optional point and an optional exponent, without a sign: at least one
digit must stand before or after the point. -/
def decimalOf? (negative : Bool) (cs : List Char) : Option Float :=
  let mantissa := cs.takeWhile fun c => c != 'e' && c != 'E'
  let rest := cs.dropWhile fun c => c != 'e' && c != 'E'
  let whole := mantissa.takeWhile (· != '.')
  let places := (mantissa.dropWhile (· != '.')).drop 1
  let exponent? := if rest.isEmpty then some 0 else exponentOf? (rest.drop 1)
  if (whole.isEmpty && places.isEmpty) || !(whole ++ places).all Char.isDigit then none
  else exponent?.map fun e => ofDecimal negative (natOfDigits 10 (whole ++ places)) (e - places.length)

end GraphImport.Number
