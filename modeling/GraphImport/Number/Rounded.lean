import GraphImport.Number.Shortest
/-!
# Decimal text of a given length

A magnitude rounded to the nearest decimal with a given number of places, or with a given number
of digits and an exponent; a tie goes to the even digit.
-/
namespace GraphImport.Number

/-- The integer nearest to a quotient, an even one in a tie. -/
def roundDiv (n d : Nat) : Nat :=
  let low := n / d
  match compare (2 * (n % d)) d with
  | .lt => low
  | .gt => low + 1
  | .eq => if low % 2 == 0 then low else low + 1

/-- `m * 2 ^ q / 10 ^ s`, rounded. -/
def roundScaled (m : Nat) (q s : Int) : Nat :=
  roundDiv (m * Nat.pow 2 q.toNat * Nat.pow 10 (-s).toNat)
    (Nat.pow 10 s.toNat * Nat.pow 2 (-q).toNat)

/-- Digits with a point before the last `places` of them. -/
def withPoint (places : Nat) (keepPoint : Bool) (digits : List Char) : List Char :=
  let digits := List.replicate (places + 1 - digits.length) '0' ++ digits
  let whole := digits.take (digits.length - places)
  whole ++ (if places == 0 && !keepPoint then [] else '.' :: digits.drop whole.length)

/-- A magnitude with a number of places. -/
def fixedText (places : Nat) (keepPoint : Bool) (m : Nat) (q : Int) : List Char :=
  withPoint places keepPoint (Nat.toDigits 10 (roundScaled m q (-places)))

/-- The digits of a magnitude, `places + 1` of them, and the exponent of the first. -/
def roundedDigits (places : Nat) (m : Nat) (q : Int) : List Char × Int :=
  if m == 0 then (List.replicate (places + 1) '0', 0)
  else
    let e := pointPosition m q - 1
    let digits := Nat.toDigits 10 (roundScaled m q (e - places))
    if digits.length > places + 1 then (digits.take (places + 1), e + 1) else (digits, e)

/-- A magnitude with a number of places and an exponent. -/
def exponentialText (places : Nat) (keepPoint : Bool) (m : Nat) (q : Int) : List Char :=
  let (digits, e) := roundedDigits places m q
  withPoint places keepPoint digits ++ 'e' :: exponentText e

def dropZeros (cs : List Char) : List Char :=
  let kept := (cs.reverse.dropWhile (· == '0')).reverse
  if kept.getLast? == some '.' then kept.dropLast else kept

/-- A magnitude with at most `count` digits, positional unless the exponent is below -4 or not
below `count`. Zeros at the end are dropped unless they are asked for. -/
def generalText (count : Nat) (keepZeros : Bool) (m : Nat) (q : Int) : List Char :=
  let places := count - 1
  let (digits, e) := roundedDigits places m q
  if -4 ≤ e && e < count then
    let text := fixedText ((places : Int) - e).toNat keepZeros m q
    if keepZeros || !text.contains '.' then text else dropZeros text
  else
    let text := withPoint places keepZeros digits
    (if keepZeros || !text.contains '.' then text else dropZeros text) ++ 'e' :: exponentText e

end GraphImport.Number
