import GraphImport.Document.Value
import GraphImport.Spec.Vocabulary
/-!
# Structural flaws

A document need not have the shape of a job spec. Each place where it has not is a flaw: the
path to the place and the cause. Reading a part of a document gives its value or every flaw in
it, and reading two parts one after the other collects the flaws of both.
-/
namespace GraphImport.Spec

/-- One step on the way to a place in a document. -/
inductive Step
  | field (name : String)
  | item (index : Nat)
  | entry (key : String)
  | entryKey
deriving DecidableEq, Repr

def Step.text : Step → String
  | .field name => name
  | .item index => toString index
  | .entry key => key
  | .entryKey => "[key]"

/-- Why a value does not fit its place. -/
inductive Mismatch
  | missing
  | notText
  | notUnicode
  | notList
  | notMapping
  | notModel (title : String)
  | notMember (words : List String)
  | notFlag
  | unclearFlag
  | notInteger
  | unclearInteger
  | oversizedInteger
  | fractional
  | notFinite
deriving DecidableEq, Repr

def Mismatch.message : Mismatch → String
  | .missing => "Field required"
  | .notText => "Input should be a valid string"
  | .notUnicode =>
    "Input should be a valid string, unable to parse raw data as a unicode string"
  | .notList => "Input should be a valid list"
  | .notMapping => "Input should be a valid dictionary"
  | .notModel title => s!"Input should be a valid dictionary or instance of {title}"
  | .notMember words => s!"Input should be {wordList words}"
  | .notFlag => "Input should be a valid boolean"
  | .unclearFlag => "Input should be a valid boolean, unable to interpret input"
  | .notInteger => "Input should be a valid integer"
  | .unclearInteger => "Input should be a valid integer, unable to parse string as an integer"
  | .oversizedInteger => "Unable to parse input string as an integer, exceeded maximum size"
  | .fractional => "Input should be a valid integer, got a number with a fractional part"
  | .notFinite => "Input should be a finite number"

/-- A value that does not fit its place. -/
structure Flaw where
  path : List Step
  cause : Mismatch
deriving DecidableEq, Repr

def Flaw.under (step : Step) (flaw : Flaw) : Flaw :=
  { flaw with path := step :: flaw.path }

/-- The path, its steps joined by points, and the message. -/
def Flaw.message (flaw : Flaw) : String :=
  let place := ".".intercalate (flaw.path.map Step.text)
  s!"{place}: {flaw.cause.message}"

/-- A value that was read, or the flaws that kept it from being read. -/
inductive Checked (α : Type)
  | ok (value : α)
  | flawed (flaws : List Flaw)
deriving Repr

/-- The message for a value that is no member of a vocabulary. -/
def invalidMember (α : Type) [Vocabulary α] (v : Document.Value) : String :=
  s!"{v.display} is not a valid {Vocabulary.title α}"

namespace Checked

variable {α β : Type}

def map (f : α → β) : Checked α → Checked β
  | .ok a => .ok (f a)
  | .flawed flaws => .flawed flaws

/-- Applies what one part gave to what the next gave; the flaws of both are kept in order. -/
def seq : Checked (α → β) → Checked α → Checked β
  | .ok f, .ok a => .ok (f a)
  | .ok _, .flawed flaws => .flawed flaws
  | .flawed flaws, .ok _ => .flawed flaws
  | .flawed flaws, .flawed more => .flawed (flaws ++ more)

instance : Applicative Checked where
  pure := .ok
  map := map
  seq f a := seq f (a ())

def mismatch (cause : Mismatch) : Checked α :=
  .flawed [{ path := [], cause }]

/-- The same reading, seen from one step further out. -/
def under (step : Step) : Checked α → Checked α
  | .ok a => .ok a
  | .flawed flaws => .flawed (flaws.map (Flaw.under step))

def flaws : Checked α → List Flaw
  | .ok _ => []
  | .flawed flaws => flaws

def toExcept : Checked α → Except (List Flaw) α
  | .ok a => .ok a
  | .flawed flaws => .error flaws

end Checked
end GraphImport.Spec
