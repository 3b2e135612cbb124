/-!
# Shortest decimal text of a floating-point number

A finite number is written with the fewest significant digits that read back to it, and among
those with the digits nearest to it. Magnitudes from 1e-4 up to 1e16 are written positionally
with at least one decimal place, all others with an exponent of at least two digits.
-/
namespace GraphImport.Number

/-- The least mantissa of a normal number, `2 ^ 52`. -/
def leastMantissa : Nat := 0x10000000000000

/-- The magnitude of a finite number as `mantissa * 2 ^ exponent`. -/
def magnitude (x : Float) : Nat × Int :=
  let bits := x.toBits.toNat
  let biased : Nat := bits / leastMantissa % 0x800
  let fraction : Nat := bits % leastMantissa
  if biased == 0 then (fraction, -1074) else (leastMantissa + fraction, (biased : Int) - 1075)

def isNegative (x : Float) : Bool :=
  x.toBits.toNat / 0x8000000000000000 == 1

/-- Compares `d * 10 ^ s` with `k * 2 ^ p`. -/
def compareScaled (d : Nat) (s : Int) (k : Nat) (p : Int) : Ordering :=
  compare (d * Nat.pow 10 s.toNat * Nat.pow 2 (-p).toNat)
    (k * Nat.pow 2 p.toNat * Nat.pow 10 (-s).toNat)

/-- Whether `d * 10 ^ s` lies among the reals that round to `m * 2 ^ q`: half a unit in the last
place to either side, a quarter below a power of two, the ends included when `m` is even. -/
def roundsTo (m : Nat) (q : Int) (d : Nat) (s : Int) : Bool :=
  let lower := if m == leastMantissa && q > -1074 then 4 * m - 1 else 4 * m - 2
  let aboveLower := compareScaled d s lower (q - 2)
  let belowUpper := compareScaled d s (4 * m + 2) (q - 2)
  (aboveLower == .gt || (aboveLower == .eq && m % 2 == 0)) &&
    (belowUpper == .lt || (belowUpper == .eq && m % 2 == 0))

/-- The least `k` with `m * 2 ^ q < 10 ^ k`, for a positive `m`. -/
def pointPosition (m : Nat) (q : Int) : Int :=
  let guess := ((m.log2 : Int) + q) * 30103 / 100000
  let fits (k : Int) := compareScaled 1 k m q == .gt
  if fits (guess - 1) then guess - 1 else if fits guess then guess
  else if fits (guess + 1) then guess + 1 else guess + 2

/-- The nearest neighbour with `n` digits that reads back, as a digit string's value and the
power of ten of its last digit. -/
def candidate (m : Nat) (q : Int) (point : Int) (n : Nat) : Option (Nat × Int) :=
  let s := point - n
  let low := m * Nat.pow 2 q.toNat * Nat.pow 10 (-s).toNat /
    (Nat.pow 10 s.toNat * Nat.pow 2 (-q).toNat)
  let lowFits := roundsTo m q low s
  let highFits := roundsTo m q (low + 1) s
  let nearerLow := match compareScaled (2 * low + 1) s (2 * m) q with
    | .lt => false
    | .gt => true
    | .eq => low % 2 == 0
  if lowFits && (nearerLow || !highFits) then some (low, s)
  else if highFits then some (low + 1, s)
  else none

/-- The shortest digits of `m * 2 ^ q`, without zeros at the end, and the position of the point
relative to the first digit. -/
def shortestDigits (m : Nat) (q : Int) : List Char × Int :=
  if m == 0 then (['0'], 1)
  else
    let point := pointPosition m q
    let (d, s) := ((List.range 17).findSome? fun n => candidate m q point (n + 1)).getD (0, 0)
    let digits := Nat.toDigits 10 d
    let trimmed := (digits.reverse.dropWhile (· == '0')).reverse
    (trimmed, s + digits.length)

/-- An exponent with its sign and at least two digits. -/
def exponentText (e : Int) : List Char :=
  let digits := Nat.toDigits 10 e.natAbs
  (if e < 0 then '-' else '+') :: List.replicate (2 - digits.length) '0' ++ digits

def positionalText (digits : List Char) (point : Int) : List Char :=
  if point ≤ 0 then '0' :: '.' :: List.replicate (-point).toNat '0' ++ digits
  else
    let whole := digits.take point.toNat
    let places := digits.drop point.toNat
    whole ++ List.replicate (point.toNat - whole.length) '0' ++ '.' ::
      (if places.isEmpty then ['0'] else places)

def scientificText (digits : List Char) (point : Int) : List Char :=
  digits.take 1 ++ (if digits.length > 1 then '.' :: digits.drop 1 else []) ++
    'e' :: exponentText (point - 1)

/-- The text of any floating-point number. -/
def text (x : Float) : String :=
  if x.isNaN then "nan"
  else
    let sign := if isNegative x then ['-'] else []
    if x.isInf then String.ofList (sign ++ "inf".toList)
    else
      let (m, q) := magnitude x
      let (digits, point) := shortestDigits m q
      let body := if -4 < point && point ≤ 16 then positionalText digits point
        else scientificText digits point
      String.ofList (sign ++ body)

/-- The integer a finite number equals, when it has no fractional part. -/
def integer? (x : Float) : Option Int :=
  let (m, q) := magnitude x
  let signed (n : Nat) : Int := if isNegative x then -n else n
  if q ≥ 0 then some (signed (m * Nat.pow 2 q.toNat))
  else
    let unit := Nat.pow 2 (-q).toNat
    if m % unit == 0 then some (signed (m / unit)) else none

end GraphImport.Number
