import GraphImport.Document.Value
import GraphImport.Number.Decimal
import GraphImport.Number.Rounded
/-!
# Message templates

A template holds conversions: a percent sign, perhaps a name in parentheses, flags, a width and a
precision, and the letter of a conversion. Each conversion takes the next argument, or the field
of that name when the arguments are a mapping.
-/
namespace GraphImport.Log

open Document (Value)

/-- The two measures of a conversion. -/
inductive Measure
  | width
  | precision
deriving DecidableEq, Repr

/-- How many bits a measure has, its sign included. -/
def Measure.bits : Measure → Nat
  | .width => 64
  | .precision => 32

/-- A measure stays below this bound. -/
def Measure.bound (m : Measure) : Int :=
  Nat.pow 2 (m.bits - 1)

/-- Why a template and its arguments do not fit. -/
inductive TemplateFault
  | argumentMissing
  | argumentsLeft
  | mappingRequired
  | listIndexed
  | bytesIndexed
  | keyUnclosed
  | keyUnknown (key : String)
  | conversionMissing
  | conversionUnknown (found : Char) (index : Nat)
  | numberRequired (conversion : Char) (kind : String)
  | integerRequired (conversion : Char) (kind : String)
  | realRequired (kind : String)
  | characterRequired
  | characterOutOfRange
  | measureRequired
  | measureTooBig (m : Measure)
  | measureOutOfRange (m : Measure)
  | noRoom
  | largeInteger
  | infiniteInteger
  | notNumber
  | longInteger
deriving DecidableEq, Repr

def TemplateFault.message : TemplateFault → String
  | .argumentMissing => "not enough arguments for format string"
  | .argumentsLeft => "not all arguments converted during string formatting"
  | .mappingRequired => "format requires a mapping"
  | .listIndexed => "list indices must be integers or slices, not str"
  | .bytesIndexed => "byte indices must be integers or slices, not str"
  | .keyUnclosed => "incomplete format key"
  | .keyUnknown key => Text.quoted key
  | .conversionMissing => "incomplete format"
  | .conversionUnknown found index =>
    let shown := if 31 ≤ found.toNat && found.toNat ≤ 126 then found else '?'
    let code := String.ofList (Nat.toDigits 16 found.toNat)
    s!"unsupported format character '{shown}' (0x{code}) at index {index}"
  | .numberRequired conversion kind =>
    s!"%{conversion} format: a real number is required, not {kind}"
  | .integerRequired conversion kind =>
    s!"%{conversion} format: an integer is required, not {kind}"
  | .realRequired kind => s!"must be real number, not {kind}"
  | .characterRequired => "%c requires int or char"
  | .characterOutOfRange => "%c arg not in range(0x110000)"
  | .measureRequired => "* wants int"
  | .measureTooBig .width => "width too big"
  | .measureTooBig .precision => "precision too big"
  | .measureOutOfRange .width => "Python int too large to convert to C ssize_t"
  | .measureOutOfRange .precision => "Python int too large to convert to C int"
  | .noRoom => ""
  | .largeInteger => "int too large to convert to float"
  | .infiniteInteger => "cannot convert float infinity to integer"
  | .notNumber => "cannot convert float NaN to integer"
  | .longInteger =>
    s!"Exceeds the limit ({Number.maxDigits} digits) for integer string conversion; " ++
      "use sys.set_int_max_str_digits() to increase the limit"

/-- What a conversion with a name refers to. -/
inductive Keyed
  | nothing
  | list
  | bytes
  | fields (entries : List (Value × Value))

/-- The arguments still to be used. -/
structure Arguments where
  waiting : List Value
  keyed : Keyed := .nothing

namespace Arguments

/-- Arguments from one value: the fields of a mapping, or the value itself, which as a list or as
bytes need not be used. -/
def ofValue (v : Value) : Arguments :=
  match v with
  | .map entries => { waiting := [v], keyed := .fields entries }
  | .list _ => { waiting := [v], keyed := .list }
  | .bytes _ => { waiting := [v], keyed := .bytes }
  | _ => { waiting := [v] }

/-- A mapping with entries that is the only argument stands for all of them. -/
def ofList : List Value → Arguments
  | [.map (entry :: entries)] => ofValue (.map (entry :: entries))
  | vs => { waiting := vs }

/-- Whether nothing is left that has to be used. -/
def isDone (a : Arguments) : Bool :=
  match a.keyed with
  | .nothing => a.waiting.isEmpty
  | .list | .bytes | .fields _ => true

end Arguments

def Arguments.next (a : Arguments) : Except TemplateFault (Value × Arguments) :=
  match a.waiting with
  | v :: rest => .ok (v, { a with waiting := rest })
  | [] => .error .argumentMissing

/-- How a conversion lays out its text. -/
structure Layout where
  left : Bool := false
  plus : Bool := false
  blank : Bool := false
  alternate : Bool := false
  zeros : Bool := false
  width : Nat := 0
  precision : Option Nat := none

def Layout.flag? (l : Layout) : Char → Option Layout
  | '-' => some { l with left := true }
  | '+' => some { l with plus := true }
  | ' ' => some { l with blank := true }
  | '#' => some { l with alternate := true }
  | '0' => some { l with zeros := true }
  | _ => none

def Layout.readFlags (l : Layout) : List Char → Layout × List Char
  | [] => (l, [])
  | c :: rest => match l.flag? c with
    | some l => l.readFlags rest
    | none => (l, c :: rest)

/-- Fills text up to the width. -/
def Layout.pad (l : Layout) (text : List Char) : List Char :=
  let fill := List.replicate (l.width - text.length) ' '
  if l.left then text ++ fill else fill ++ text

/-- Fills a number up to the width, with zeros between its sign and digits if these are asked
for. -/
def Layout.padNumber (l : Layout) (negative : Bool) (mark digits : List Char) : List Char :=
  let sign := if negative then ['-'] else if l.plus then ['+'] else if l.blank then [' '] else []
  let head := sign ++ mark
  if l.zeros && !l.left then
    head ++ List.replicate (l.width - head.length - digits.length) '0' ++ digits
  else l.pad (head ++ digits)

def upper (cs : List Char) : List Char :=
  cs.map Char.toUpper

/-- The integer part of a floating-point number. -/
def truncated (x : Float) : Except TemplateFault Int :=
  if x.isNaN then .error .notNumber
  else if x.isInf then .error .infiniteInteger
  else
    let (m, q) := Number.magnitude x
    let n := m * Nat.pow 2 q.toNat / Nat.pow 2 (-q).toNat
    .ok (if Number.isNegative x then -n else n)

/-- The integer that a conversion to one takes. -/
def integerFor (conversion : Char) (v : Value) : Except TemplateFault Int :=
  let decimal := conversion == 'd' || conversion == 'i' || conversion == 'u'
  match v with
  | .int n => if decimal && Number.isLong n then .error .longInteger else .ok n
  | .bool b => .ok (if b then 1 else 0)
  | .float x => if decimal then truncated x else .error (.integerRequired conversion "float")
  | _ => .error (if decimal then .numberRequired conversion v.kind
      else .integerRequired conversion v.kind)

def integerText (l : Layout) (conversion : Char) (n : Int) : List Char :=
  let (base, mark) : Nat × List Char := match conversion with
    | 'o' => (8, ['0', 'o'])
    | 'x' | 'X' => (16, ['0', 'x'])
    | _ => (10, [])
  let digits := Nat.toDigits base n.natAbs
  let digits := List.replicate (l.precision.getD 0 - digits.length) '0' ++ digits
  let mark := if l.alternate then mark else []
  let inCase := if conversion == 'X' then upper else id
  l.padNumber (n < 0) (inCase mark) (inCase digits)

def realOf (v : Value) : Except TemplateFault Float :=
  let ofInt (n : Int) : Except TemplateFault Float :=
    let x := Number.ofInt n
    if x.isInf then .error .largeInteger else .ok x
  match v with
  | .float x => .ok x
  | .int n => ofInt n
  | .bool b => ofInt (if b then 1 else 0)
  | _ => .error (.realRequired v.kind)

def realText (l : Layout) (conversion : Char) (x : Float) : List Char :=
  let places := l.precision.getD 6
  let (m, q) := Number.magnitude x
  let digits :=
    if x.isNaN then "nan".toList
    else if x.isInf then "inf".toList
    else match conversion.toLower with
      | 'f' => Number.fixedText places l.alternate m q
      | 'e' => Number.exponentialText places l.alternate m q
      | _ => Number.generalText (max places 1) l.alternate m q
  let digits := if conversion.isUpper then upper digits else digits
  l.padNumber (Number.isNegative x && !x.isNaN) [] digits

/-- Quoted text in which characters beyond ASCII are written by their code points. -/
def asciiText (cs : List Char) : List Char :=
  cs.flatMap fun c =>
    let n := c.toNat
    if n < 0x80 then [c]
    else if n < 0x100 then '\\' :: 'x' :: Text.hexDigits 2 n
    else if n < 0x10000 then '\\' :: 'u' :: Text.hexDigits 4 n
    else '\\' :: 'U' :: Text.hexDigits 8 n

def characterText (v : Value) : Except TemplateFault (List Char) :=
  let ofCode (n : Int) : Except TemplateFault (List Char) :=
    if n < 0 || 0x10FFFF < n then .error .characterOutOfRange else .ok [Char.ofNat n.toNat]
  match v with
  | .text s => match s.toList with
    | [c] => .ok [c]
    | _ => .error .characterRequired
  | .int n => ofCode n
  | .bool b => ofCode (if b then 1 else 0)
  | _ => .error .characterRequired

/-- The text of an argument under a conversion that stands at an index. -/
def converted (l : Layout) (conversion : Char) (index : Nat) (v : Value) :
    Except TemplateFault (List Char) :=
  let cut (cs : List Char) : Except TemplateFault (List Char) :=
    if v.isShowable then .ok (l.pad (cs.take (l.precision.getD cs.length)))
    else .error .longInteger
  if conversion == 's' then cut v.plain.toList
  else if conversion == 'r' then cut v.display.toList
  else if conversion == 'a' then cut (asciiText v.display.toList)
  else if conversion == 'c' then l.pad <$> characterText v
  else if "diuoxX".toList.contains conversion then
    integerText l conversion <$> integerFor conversion v
  else if "eEfFgG".toList.contains conversion then realText l conversion <$> realOf v
  else .error (.conversionUnknown conversion index)

/-- Splits a name at the parenthesis that closes it. -/
def keyOf? : Nat → List Char → Option (List Char × List Char)
  | _, [] => none
  | depth, c :: rest =>
    if c == ')' && depth == 0 then some ([], rest)
    else
      let depth := if c == '(' then depth + 1 else if c == ')' then depth - 1 else depth
      (keyOf? depth rest).map fun (key, rest) => (c :: key, rest)

/-- Reads a measure, or takes it from the arguments where a star stands for it. -/
def measure (m : Measure) (a : Arguments) (cs : List Char) :
    Except TemplateFault (Option Int × Arguments × List Char) :=
  let within (n : Int) : Bool := -m.bound ≤ n && n < m.bound
  match cs with
  | '*' :: rest => do
    let (v, a) ← a.next
    let n ← match v with
      | .int n => pure n
      | .bool b => pure (if b then 1 else 0)
      | _ => throw .measureRequired
    if within n then return (some n, a, rest) else throw (.measureOutOfRange m)
  | _ => do
    let digits := cs.takeWhile Char.isDigit
    let n : Int := digits.foldl (fun n c => 10 * n + (c.toNat - 48)) 0
    if within n then return (if digits.isEmpty then none else some n, a, cs.drop digits.length)
    else throw (.measureTooBig m)

/-- Reads the flags, the width and the precision of a conversion. -/
def layoutOf (a : Arguments) (cs : List Char) :
    Except TemplateFault (Layout × Arguments × List Char) := do
  let (l, cs) := ({} : Layout).readFlags cs
  let (width?, a, cs) ← measure .width a cs
  let width := width?.getD 0
  let l := { l with width := width.natAbs, left := l.left || width < 0 }
  let (l, a, cs) ← match cs with
    | '.' :: cs => do
      let (precision?, a, cs) ← measure .precision a cs
      pure ({ l with precision := some ((precision?.getD 0).toNat) }, a, cs)
    | _ => pure (l, a, cs)
  match cs with
  | 'h' :: rest | 'l' :: rest | 'L' :: rest => return (l, a, rest)
  | _ => return (l, a, cs)

/-- Makes the field that a conversion names the next argument. -/
def named (a : Arguments) (cs : List Char) : Except TemplateFault (Arguments × List Char) :=
  match cs with
  | '(' :: rest => match a.keyed with
    | .nothing => .error .mappingRequired
    | .list => .error (if (keyOf? 0 rest).isSome then .listIndexed else .keyUnclosed)
    | .bytes => .error (if (keyOf? 0 rest).isSome then .bytesIndexed else .keyUnclosed)
    | .fields entries => match keyOf? 0 rest with
      | none => .error .keyUnclosed
      | some (key, rest) =>
        let name := String.ofList key
        match Value.find? name entries with
        | some v => .ok ({ a with waiting := [v] }, rest)
        | none => .error (.keyUnknown name)
  | _ => .ok (a, cs)

/-- Text of more characters than this has no room. -/
def roomiest : Nat := 0x100000000

/-- The conversion after a percent sign: its text, and what is left. A second percent sign stands
for one. -/
def conversion (size : Nat) (a : Arguments) (cs : List Char) :
    Except TemplateFault (List Char × Arguments × List Char) := do
  if let '%' :: rest := cs then return (['%'], a, rest)
  let (a, cs) ← named a cs
  let (l, a, cs) ← layoutOf a cs
  match cs with
  | [] => .error .conversionMissing
  | c :: rest =>
    let (v, a) ← a.next
    let fits : Bool := l.width ≤ roomiest
    let text ← converted (if fits then l else { l with width := 0 }) c (size - cs.length) v
    if fits then return (text, a, rest) else throw .noRoom

/-- Fills in a template from some point on. -/
def fillFrom (size : Nat) : Nat → Arguments → List Char → Except TemplateFault (List Char)
  | 0, _, _ => .ok []
  | fuel + 1, a, cs =>
    match cs with
    | [] => if a.isDone then .ok [] else .error .argumentsLeft
    | '%' :: rest => do
      let (text, a, rest) ← conversion size a rest
      return text ++ (← fillFrom size fuel a rest)
    | c :: rest => (c :: ·) <$> fillFrom size fuel a rest

/-- A template with its conversions filled in. -/
def fill (template : String) (arguments : Arguments) : Except TemplateFault String :=
  let cs := template.toList
  String.ofList <$> fillFrom cs.length (cs.length + 1) arguments cs

end GraphImport.Log
