import GraphImport.Yaml.Token
/-!
# Directives, anchors and tags

How the tokens that say something about a document or a node, rather than being part of its
content, are read.
-/
namespace GraphImport.Yaml

def refuse {α : Type} (fault : TokenFault) : Except Fault α :=
  .error (.token fault)

/-- Reads decimal digits. -/
def decimal (p : Place) : Except Fault (Nat × Place) :=
  let (digits, next) := p.span Char.isDigit
  if digits.isEmpty then refuse (.digitExpected p.head)
  else .ok (Number.natOfDigits 10 digits, next)

/-- Reads the percent escapes that stand next to each other, as bytes. -/
def escapedBytes : Nat → List UInt8 → Place → Except Fault (List UInt8 × Place)
  | 0, known, p => .ok (known.reverse, p)
  | fuel + 1, known, p =>
    if p.head == '%' then
      let p := p.step
      if !Number.isHexDigit p.head then refuse (.uriEscapeExpected p.head)
      else if !Number.isHexDigit (p.peek 1) then refuse (.uriEscapeExpected (p.peek 1))
      else
        let byte := UInt8.ofNat (Number.natOfDigits 16 [p.head, p.peek 1])
        escapedBytes fuel (byte :: known) (p.advance 2)
    else .ok (known.reverse, p)

/-- Reads a URI from some point on; escapes are bytes of UTF-8. -/
def uriFrom : Nat → List Char → Place → Except Fault (List Char × Place)
  | 0, known, p => .ok (known, p)
  | fuel + 1, known, p =>
    let (run, next) := p.span fun c => isUriChar c && c != '%'
    let known := known ++ run
    if next.head == '%' then do
      let (bytes, next) ← escapedBytes next.rest.length [] next
      match Text.decodeUtf8From 0 bytes with
      | .ok chars => uriFrom fuel (known ++ chars) next
      | .error fault => refuse (.uriNotUnicode fault)
    else .ok (known, next)

/-- Reads a URI of at least one character. -/
def uri (p : Place) : Except Fault (String × Place) := do
  let (chars, next) ← uriFrom (p.rest.length + 1) [] p
  if next.index == p.index then refuse (.uriExpected p.head)
  else .ok (String.ofList chars, next)

/-- Reads a tag handle: an exclamation mark, or a name between two of them. -/
def tagHandle (p : Place) : Except Fault (String × Place) :=
  if p.head != '!' then refuse (.characterExpected '!' p.head)
  else
    let start := p.step
    if start.head == ' ' then .ok ("!", start)
    else
      let (name, next) := start.span isNameChar
      if next.head == '!' then .ok ("!" ++ String.ofList name ++ "!", next.step)
      else refuse (.characterExpected '!' next.head)

/-- Passes blanks and a comment up to the end of the line. -/
def endOfLine (p : Place) : Except Fault Place :=
  let p := p.skipBlanks.skipComment
  if isBreakOrEnd p.head then .ok ((p.lineBreak?.map (·.2)).getD p)
  else refuse (.lineEndExpected p.head)

def versionDirective (p : Place) : Except Fault (Directive × Place) := do
  let (major, p) ← decimal p.skipBlanks
  if p.head != '.' then refuse (.digitOrExpected '.' p.head)
  let (minor, p) ← decimal p.step
  if !isGap p.head then refuse (.digitOrExpected ' ' p.head)
  return (.version major minor, p)

def handleDirective (p : Place) : Except Fault (Directive × Place) := do
  let (name, p) ← tagHandle p.skipBlanks
  if p.head != ' ' then refuse (.characterExpected ' ' p.head)
  let (expansion, p) ← uri p.skipBlanks
  if !isGap p.head then refuse (.characterExpected ' ' p.head)
  return (.handle name expansion, p)

/-- Reads a directive after its percent sign, with the line it stands on. -/
def directive (p : Place) : Except Fault (Token × Place) := do
  let (name, p) := p.span isNameChar
  if name.isEmpty || !isGap p.head then refuse (.nameExpected p.head)
  let (d, p) ←
    if name == "YAML".toList then versionDirective p
    else if name == "TAG".toList then handleDirective p
    else pure (.other, p.skipLine)
  return (.directive d, ← endOfLine p)

/-- Reads the name of an anchor or alias after its sign. -/
def anchorName (p : Place) : Except Fault (String × Place) :=
  let (name, p) := p.span isNameChar
  if name.isEmpty || !(isWideGap p.head || "?:,]\x7d%@\x60".toList.contains p.head) then
    refuse (.nameExpected p.head)
  else .ok (String.ofList name, p)

/-- Whether the text up to the next gap holds an exclamation mark. -/
def hasHandle (cs : List Char) : Bool :=
  (cs.takeWhile fun c => !isGap c).contains '!'

/-- Reads a tag: verbatim in angle brackets, the mark alone, or a handle and a suffix. -/
def tag (p : Place) : Except Fault (Token × Place) := do
  let next := p.peek 1
  let (handle, suffix, p) ←
    if next == '<' then do
      let (suffix, p) ← uri (p.advance 2)
      if p.head != '>' then refuse (.characterExpected '>' p.head)
      pure (none, suffix, p.step)
    else if isWideGap next then pure (none, "!", p.step)
    else do
      let (handle, p) ←
        if hasHandle (p.rest.drop 1) then tagHandle p else pure ("!", p.step)
      let (suffix, p) ← uri p
      pure (some handle, suffix, p)
  if !isGap p.head then refuse (.characterExpected ' ' p.head)
  return (.tag handle suffix, p)

end GraphImport.Yaml
