import GraphImport.Yaml.Place
/-!
# YAML tokens

The smallest parts of a YAML text. The starts and ends of block collections follow from
indentation and have no characters of their own.
-/
namespace GraphImport.Yaml

/-- Text of a scalar. It is broken when an escape made an unpaired surrogate. -/
structure Content where
  chars : List Char := []
  broken : Bool := false
deriving DecidableEq, Repr, Inhabited

def Content.append (a b : Content) : Content :=
  { chars := a.chars ++ b.chars, broken := a.broken || b.broken }

instance : Append Content where
  append := Content.append

/-- A directive: the version of the format, a handle for tags, or one that says nothing here. -/
inductive Directive
  | version (major minor : Nat)
  | handle (name expansion : String)
  | other
deriving DecidableEq, Repr

inductive Token
  | streamStart
  | streamEnd
  | directive (d : Directive)
  | documentStart
  | documentEnd
  | blockSequenceStart
  | blockMappingStart
  | blockEnd
  | flowSequenceStart
  | flowSequenceEnd
  | flowMappingStart
  | flowMappingEnd
  | blockEntry
  | flowEntry
  | key
  | value
  | alias (name : String)
  | anchor (name : String)
  | tag (handle : Option String) (suffix : String)
  | scalar (content : Content) (plain : Bool)
deriving DecidableEq, Repr, Inhabited

/-- How messages name a token. -/
def Token.label : Token → String
  | .streamStart => "<stream start>"
  | .streamEnd => "<stream end>"
  | .directive _ => "<directive>"
  | .documentStart => "<document start>"
  | .documentEnd => "<document end>"
  | .blockSequenceStart => "<block sequence start>"
  | .blockMappingStart => "<block mapping start>"
  | .blockEnd => "<block end>"
  | .flowSequenceStart => "["
  | .flowSequenceEnd => "]"
  | .flowMappingStart => "\x7b"
  | .flowMappingEnd => "\x7d"
  | .blockEntry => "-"
  | .flowEntry => ","
  | .key => "?"
  | .value => ":"
  | .alias _ => "<alias>"
  | .anchor _ => "<anchor>"
  | .tag _ _ => "<tag>"
  | .scalar _ _ => "<scalar>"

end GraphImport.Yaml
