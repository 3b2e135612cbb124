import GraphImport.Yaml.NodeValue
/-!
# Reading YAML

A YAML text as a document value. Of several faults the one that counts is a character that may
not occur anywhere; else the first one in the tokens and their order; else the first one in the
values, on the shallowest level. A text without a document has the value null.
-/
namespace GraphImport.Yaml

open Document (Value)

/-- The first character of a text that may not occur. -/
def forbidden? (text : List Char) : Option Fault :=
  (text.findIdx? fun c => !isAllowed c).map fun index =>
    .character ((text.getD index endMark).toNat) index

/-- The value of a text. -/
def read (version : Version) (text : List Char) : Except Fault Value :=
  match forbidden? text with
  | some fault => .error fault
  | none => do
    match ← Node.ofTokens? version (tokensOf text) with
    | none => return .null
    | some root => (root.value version).toExcept

end GraphImport.Yaml
