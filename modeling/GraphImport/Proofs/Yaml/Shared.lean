import GraphImport.Proofs.Json.Written
import GraphImport.Yaml.ScalarValue

/-!
# JSON that is YAML

The forms of JSON that mean the same in YAML: no tabs between tokens, no characters or escapes that
YAML forbids or folds, numbers as the older version writes them, and each name on one line with its
colon.
-/

namespace GraphImport.Json

open Number (maxDigits)
open Yaml (isAllowed isBreak)

def Gap.IsShared (gap : Gap) : Prop :=
  '\t' ∉ gap.chars

instance (gap : Gap) : Decidable gap.IsShared :=
  inferInstanceAs (Decidable (_ ∉ gap.chars))

/-- A character is shared if YAML allows it and does not take it for a line break, and an escape
if it does not need another one to make a character. -/
def Piece.IsShared : Piece → Prop
  | .char c _ => isAllowed c = true ∧ isBreak c = false
  | .letter .. | .unit .. => True
  | .pair .. => False

instance : DecidablePred Piece.IsShared
  | .char .. => inferInstanceAs (Decidable (_ ∧ _))
  | .letter .. | .unit .. => inferInstanceAs (Decidable True)
  | .pair .. => inferInstanceAs (Decidable False)

/-- An integer is shared if it is not too long, and any other number if it has a point and its
exponent, if there is one, has a sign. -/
structure Numeral.IsShared (n : Numeral) : Prop where
  integer : n.places = [] → n.exponent = none ∧ n.whole.length ≤ maxDigits
  signed : ∀ e ∈ n.exponent, e.sign.isSome = true

/-- The name of a field is shared if its colon follows on the same line and not too far away. -/
structure IsSharedName (name : List Piece) (colon : Gap) : Prop where
  pieces : ∀ p ∈ name, p.IsShared
  line : ∀ c ∈ colon.chars, c = ' '
  length : (quotedChars name).length + colon.chars.length ≤ 1024

mutual

def Written.IsShared : Written → Prop
  | .null | .bool _ => True
  | .number n => n.IsShared
  | .string s => ∀ p ∈ s, p.IsShared
  | .emptyList gap => gap.IsShared
  | .list before items => before.IsShared ∧ items.IsShared
  | .emptyRecord gap => gap.IsShared
  | .record before fields => before.IsShared ∧ fields.IsShared

def Items.IsShared : Items → Prop
  | .last item after => item.IsShared ∧ after.IsShared
  | .more item after before rest =>
    item.IsShared ∧ after.IsShared ∧ before.IsShared ∧ rest.IsShared

def Fields.IsShared : Fields → Prop
  | .last name colon before item after =>
    IsSharedName name colon ∧ before.IsShared ∧ item.IsShared ∧ after.IsShared
  | .more name colon before item after next rest =>
    IsSharedName name colon ∧ before.IsShared ∧ item.IsShared ∧ after.IsShared ∧
      next.IsShared ∧ rest.IsShared

end

structure Page.IsShared (p : Page) : Prop where
  before : p.before.IsShared
  root : p.root.IsShared
  after : p.after.IsShared

end GraphImport.Json
