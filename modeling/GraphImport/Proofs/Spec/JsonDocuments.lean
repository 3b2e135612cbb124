import GraphImport.Proofs.Json.Breaks
import GraphImport.Proofs.Json.Values
import GraphImport.Proofs.Spec.Loading
import GraphImport.Proofs.Yaml.Values

/-!
# Job specs written in JSON

A job spec file is read as YAML whatever it holds. A JSON text that is shared loads as its JSON
value; one with a tab between two tokens does not load at all.
-/

namespace GraphImport.Spec

open Files (Path Tree)
open Json (Gap Page Piece blankGap noGap)

section Samples

open Json (Exponent Numeral)

/-- The number -1.50E+2. -/
def spareNumber : Numeral where
  negative := true
  whole := ['1']
  places := ['5', '0']
  exponent := some {
    letter := 'E'
    sign := some '+'
    digits := ['2']
    isLetter := .inr rfl
    isSign := fun _ h => .inl (Option.some.inj h).symm
    nonempty := List.cons_ne_nil _ _
    isDigit := Text.forall_mem_of_all (by decide) }
  nonempty := List.cons_ne_nil _ _
  wholeDigit := Text.forall_mem_of_all (by decide)
  leadingZero := by decide
  placesDigit := Text.forall_mem_of_all (by decide)

/-- A text with a character as it stands and two that are escaped. -/
def spareText : List Piece :=
  [.char 'é' (by decide), .letter 'n' '\n' rfl,
    .unit ⟨"00e9".toList, rfl, Text.forall_mem_of_all (by decide)⟩ (by decide) (by decide)]

def notesName : List Piece :=
  "notes".toList.pmap Piece.char (Text.forall_mem_of_all (by decide))

def targetsName : List Piece :=
  "targets".toList.pmap Piece.char (Text.forall_mem_of_all (by decide))

/-- A line break in the style of some systems, and two spaces. -/
def returnGap : Gap :=
  ⟨"\r\n  ".toList, Text.forall_mem_of_all (by decide)⟩

/-- A job spec with a field that no job spec has, and without targets. -/
def sparePage : Page where
  before := noGap
  root := .record noGap
    (.more notesName noGap blankGap
      (.list noGap (.more (.number spareNumber) noGap blankGap (.last (.string spareText) noGap)))
      noGap returnGap (.last targetsName noGap blankGap (.emptyList noGap) noGap))
  after := noGap

example : String.ofList sparePage.chars =
    "\x7b\"notes\": [-1.50E+2, \"é\\n\\u00e9\"],\r\n  \"targets\": []\x7d" := by
  decide +kernel

theorem spareNumber_shared : spareNumber.IsShared where
  integer := fun h => absurd h (List.cons_ne_nil _ _)
  signed := fun _ h => Option.some.inj h ▸ rfl

theorem sparePage_shared : sparePage.IsShared := by
  have hnone : noGap.IsShared := by decide
  have hblank : blankGap.IsShared := by decide
  have hreturn : returnGap.IsShared := by decide
  have hnotes : Json.IsSharedName notesName noGap :=
    ⟨by decide, List.forall_mem_nil _, by decide⟩
  have htargets : Json.IsSharedName targetsName noGap :=
    ⟨by decide, List.forall_mem_nil _, by decide⟩
  have htext : ∀ p ∈ spareText, p.IsShared := by decide
  exact ⟨hnone, ⟨hnone, hnotes, hblank,
    ⟨hnone, spareNumber_shared, hnone, hblank, htext, hnone⟩, hnone, hreturn,
    htargets, hblank, hnone, hnone⟩, hnone⟩

def pagePath : Path :=
  { names := ["job.json"] }

/-- A directory with one file, which holds a page. -/
def fileOf (p : Page) : Tree :=
  { entries := [(pagePath, .file (String.ofList p.chars).toUTF8.data.toList)] }

/-- A job spec without targets, with a tab before the list of these. -/
def tabbedPage : Page where
  before := noGap
  root := .record noGap
    (.last targetsName noGap ⟨['\t'], Text.forall_mem_of_all (by decide)⟩ (.emptyList noGap) noGap)
  after := noGap

end Samples

end GraphImport.Spec
