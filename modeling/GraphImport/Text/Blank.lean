/-!
# Blank text

A character is a space when Unicode calls it white space or when it is one of the four
information separators U+001C to U+001F. Text is blank when it holds nothing but spaces.
-/
namespace GraphImport.Text

/-- Unicode white space, and the information separators U+001C to U+001F. -/
def isSpace (c : Char) : Bool :=
  let n := c.toNat
  (0x09 ≤ n && n ≤ 0x0D) || (0x1C ≤ n && n ≤ 0x20) || n == 0x85 || n == 0xA0 || n == 0x1680 ||
    (0x2000 ≤ n && n ≤ 0x200A) || n == 0x2028 || n == 0x2029 || n == 0x202F || n == 0x205F ||
    n == 0x3000

/-- Unicode white space. -/
def isWhite (c : Char) : Bool :=
  isSpace c && !(0x1C ≤ c.toNat && c.toNat ≤ 0x1F)

/-- Text of spaces alone; the empty text is blank. -/
def isBlank (s : String) : Bool :=
  s.toList.all isSpace

/-- Absent text counts as blank. -/
def isBlank? : Option String → Bool
  | none => true
  | some s => isBlank s

/-- The characters without the spaces at the end. -/
def trimEnd (cs : List Char) : List Char :=
  (cs.reverse.dropWhile isSpace).reverse

/-- The characters without the spaces at either end. -/
def trim (cs : List Char) : List Char :=
  trimEnd (cs.dropWhile isSpace)

/-- The characters without the white space at either end. -/
def trimWhite (cs : List Char) : List Char :=
  ((cs.dropWhile isWhite).reverse.dropWhile isWhite).reverse

@[simp] theorem isBlank_empty : isBlank "" = true := by decide

end GraphImport.Text
