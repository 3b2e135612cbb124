import GraphImport.Document.Calendar
import GraphImport.Number.Integer
import GraphImport.Text.Base64
import GraphImport.Text.Quoted
import GraphImport.Text.Utf8
/-!
# Faults of YAML documents

Everything that keeps a text from being a YAML document with a value: characters that may not
occur, tokens that cannot be read or are out of place, unknown or repeated anchors, and nodes
that have no value under their tag.
-/
namespace GraphImport.Yaml

/-- Why no token can be read. The character found is NUL at the end of the text. -/
inductive TokenFault
  | colonExpected
  | entryNotAllowed
  | keyNotAllowed
  | valueNotAllowed
  | cannotStart (found : Char)
  | nameExpected (found : Char)
  | digitExpected (found : Char)
  | digitOrExpected (other found : Char)
  | characterExpected (expected found : Char)
  | uriExpected (found : Char)
  | uriEscapeExpected (found : Char)
  | uriNotUnicode (fault : Text.Utf8Fault)
  | lineEndExpected (found : Char)
  | zeroIndentation
  | headerExpected (found : Char)
  | escapeExpected (width : Nat) (found : Char)
  | unknownEscape (found : Char)
  | unexpectedEnd
  | unexpectedSeparator
deriving DecidableEq, Repr

/-- Why the tokens form no document; `found` is the token that came instead. -/
inductive GrammarFault
  | contentExpected (found : String)
  | blockEndExpected (found : String)
  | documentStartExpected (found : String)
  | separatorExpected (closing : Char) (found : String)
  | undefinedHandle (handle : String)
  | repeatedHandle (handle : String)
  | repeatedVersion
  | incompatibleVersion
deriving DecidableEq, Repr

/-- Why the nodes of a document do not hang together. -/
inductive AnchorFault
  | undefinedAlias (name : String)
  | repeatedAnchor
  | secondDocument
deriving DecidableEq, Repr

/-- Why a node has no value under its tag. -/
inductive NodeFault
  | unknownTag (tag : String)
  | kindExpected (expected found : String)
  | mappingToMergeExpected (found : String)
  | mappingsToMergeExpected (found : String)
  | unhashableKey
  | repeatedKey (key value first : String)
  | singlePairExpected (count : Nat)
  | pairExpected (found : String)
  | mapNodeExpected (found : String)
  | notAscii (found : List Char) (position length : Nat)
  | notBase64 (fault : Text.Base64Fault)
deriving DecidableEq, Repr

/-- Why the text of a scalar is no value of the type its tag names. -/
inductive ScalarFault
  | notBool (text : String)
  | emptyNumber
  | notInteger (base : Nat) (text : String) (fault : Number.IntegerFault)
  | notFloat (text : String)
  | notTimestamp
  | calendar (fault : Document.CalendarFault)
deriving DecidableEq, Repr

inductive Fault
  | character (code index : Nat)
  | token (fault : TokenFault)
  | codePoint (wide : Bool)
  | grammar (fault : GrammarFault)
  | anchor (fault : AnchorFault)
  | node (fault : NodeFault)
  | scalar (fault : ScalarFault)
deriving DecidableEq, Repr

/-- Whether a fault is one of the format, and not of a number or time that a scalar stands for. -/
def Fault.isOfFormat : Fault → Bool
  | .codePoint _ | .scalar _ => false
  | _ => true

def quotedChar (c : Char) : String :=
  Text.quoted (String.singleton c)

def TokenFault.message : TokenFault → String
  | .colonExpected => "could not find expected ':'"
  | .entryNotAllowed => "sequence entries are not allowed here"
  | .keyNotAllowed => "mapping keys are not allowed here"
  | .valueNotAllowed => "mapping values are not allowed here"
  | .cannotStart found => s!"found character {quotedChar found} that cannot start any token"
  | .nameExpected found =>
    s!"expected alphabetic or numeric character, but found {quotedChar found}"
  | .digitExpected found => s!"expected a digit, but found {quotedChar found}"
  | .digitOrExpected other found =>
    s!"expected a digit or '{other}', but found {quotedChar found}"
  | .characterExpected expected found =>
    s!"expected '{expected}', but found {quotedChar found}"
  | .uriExpected found => s!"expected URI, but found {quotedChar found}"
  | .uriEscapeExpected found =>
    "expected URI escape sequence of 2 hexadecimal numbers, but found " ++ quotedChar found
  | .uriNotUnicode fault => fault.message
  | .lineEndExpected found =>
    s!"expected a comment or a line break, but found {quotedChar found}"
  | .zeroIndentation => "expected indentation indicator in the range 1-9, but found 0"
  | .headerExpected found =>
    s!"expected chomping or indentation indicators, but found {quotedChar found}"
  | .escapeExpected width found =>
    s!"expected escape sequence of {width} hexadecimal numbers, but found {quotedChar found}"
  | .unknownEscape found => s!"found unknown escape character {quotedChar found}"
  | .unexpectedEnd => "found unexpected end of stream"
  | .unexpectedSeparator => "found unexpected document separator"

def GrammarFault.message : GrammarFault → String
  | .contentExpected found => s!"expected the node content, but found {Text.quoted found}"
  | .blockEndExpected found => s!"expected <block end>, but found {Text.quoted found}"
  | .documentStartExpected found =>
    s!"expected '<document start>', but found {Text.quoted found}"
  | .separatorExpected closing found =>
    s!"expected ',' or '{closing}', but got {Text.quoted found}"
  | .undefinedHandle handle => s!"found undefined tag handle {Text.quoted handle}"
  | .repeatedHandle handle => s!"duplicate tag handle {Text.quoted handle}"
  | .repeatedVersion => "found duplicate YAML directive"
  | .incompatibleVersion => "found incompatible YAML document (version 1.* is required)"

def AnchorFault.message : AnchorFault → String
  | .undefinedAlias name => s!"found undefined alias {Text.quoted name}"
  | .repeatedAnchor => "second occurrence"
  | .secondDocument => "but found another document"

/-- A run of characters beyond ASCII, one of them shown by its code point. -/
def beyondAscii (found : List Char) (position length : Nat) : String :=
  match found, length with
  | c :: _, 1 =>
    let n := c.toNat
    let code :=
      if n < 0x100 then 'x' :: Text.hexDigits 2 n
      else if n < 0x10000 then 'u' :: Text.hexDigits 4 n
      else 'U' :: Text.hexDigits 8 n
    "character '\\" ++ String.ofList code ++ s!"' in position {position}"
  | _, _ => s!"characters in position {position}-{position + length - 1}"

def NodeFault.message : NodeFault → String
  | .unknownTag tag => s!"could not determine a constructor for the tag {Text.quoted tag}"
  | .kindExpected expected found => s!"expected a {expected} node, but found {found}"
  | .mappingToMergeExpected found => s!"expected a mapping for merging, but found {found}"
  | .mappingsToMergeExpected found =>
    s!"expected a mapping or list of mappings for merging, but found {found}"
  | .unhashableKey => "found unhashable key"
  | .repeatedKey key value first =>
    s!"found duplicate key \"{key}\" with value \"{value}\" (original value: \"{first}\")"
  | .singlePairExpected count => s!"expected a single mapping item, but found {count} items"
  | .pairExpected found => s!"expected a mapping of length 1, but found {found}"
  | .mapNodeExpected found => s!"expected a sequence, but found {found}"
  | .notAscii found position length =>
    "failed to convert base64 data into ascii: 'ascii' codec can't encode " ++
      beyondAscii found position length ++ ": ordinal not in range(128)"
  | .notBase64 fault => s!"failed to decode base64 data: {fault.message}"

def ScalarFault.message : ScalarFault → String
  | .notBool text => Text.quoted text
  | .emptyNumber => "string index out of range"
  | .notInteger base text fault => fault.message base text
  | .notFloat text => s!"could not convert string to float: {Text.quoted text}"
  | .notTimestamp => "'NoneType' object has no attribute 'groupdict'"
  | .calendar fault => fault.message

/-- The message of a character that may not occur. -/
def characterMessage (code index : Nat) : String :=
  "unacceptable character #x" ++ String.ofList (Text.hexPadded 4 code) ++
    ": special characters are not allowed\n  in \"<unicode string>\", position " ++ toString index

def Fault.message : Fault → String
  | .character code index => characterMessage code index
  | .token fault => fault.message
  | .codePoint false => "chr() arg not in range(0x110000)"
  | .codePoint true => "Python int too large to convert to C int"
  | .grammar fault => fault.message
  | .anchor fault => fault.message
  | .node fault => fault.message
  | .scalar fault => fault.message

end GraphImport.Yaml
