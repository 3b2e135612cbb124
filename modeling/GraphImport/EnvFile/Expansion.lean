import GraphImport.EnvFile.Reader
/-!
# Variables in environment files

A value may refer to variables, with a text to use instead of one that is not there. References
see the variables that are set already and, where there are none of that name, the entries above.
Entries never override what is set.
-/
namespace GraphImport.EnvFile

/-- A part of a value: text, or a reference to a variable. -/
inductive Piece
  | text (c : Char)
  | reference (name : String) (instead : String)
deriving DecidableEq, Repr

/-- Reads a reference after its opening brace. -/
def reference? (cs : List Char) : Option (Piece × List Char) :=
  let name := cs.takeWhile fun c => c != '\x7d' && c != ':'
  match cs.drop name.length with
  | '\x7d' :: rest => some (.reference (String.ofList name) "", rest)
  | ':' :: '-' :: rest =>
    let instead := rest.takeWhile (· != '\x7d')
    match rest.drop instead.length with
    | '\x7d' :: rest => some (.reference (String.ofList name) (String.ofList instead), rest)
    | _ => none
  | _ => none

/-- The pieces of a value. -/
def piecesOf : Nat → List Char → List Piece
  | 0, _ => []
  | fuel + 1, cs => match cs with
    | [] => []
    | '$' :: '\x7b' :: rest => match reference? rest with
      | some (piece, rest) => piece :: piecesOf fuel rest
      | none => .text '$' :: piecesOf fuel ('\x7b' :: rest)
    | c :: rest => .text c :: piecesOf fuel rest

abbrev Variables := List (String × String)

/-- The values known so far, by name; an entry without a value has none. -/
abbrev Known := List (String × Option String)

/-- What a piece stands for. The last entry of a name counts. -/
def Piece.resolve (env : Variables) (known : Known) : Piece → String
  | .text c => String.singleton c
  | .reference name instead => match env.lookup name with
    | some value => value
    | none => match known.reverse.lookup name with
      | some value? => value?.getD ""
      | none => instead

def expand (env : Variables) (known : Known) (value : String) : String :=
  let pieces := piecesOf (value.length + 1) value.toList
  String.join (pieces.map (Piece.resolve env known))

/-- The entries with their references resolved, each seeing those before it. -/
def resolved (env : Variables) (entries : List Entry) : Known :=
  entries.foldl (fun known e => known ++ [(e.name, e.value.map (expand env known))]) []

/-- Why an entry cannot become a variable. -/
inductive EntryFault
  | nullCharacter
  | invalidName
deriving DecidableEq, Repr

def EntryFault.message : EntryFault → String
  | .nullCharacter => "embedded null byte"
  | .invalidName => "illegal environment variable name"

/-- What is wrong with a variable, if anything is. -/
def entryFault? (name value : String) : Option EntryFault :=
  if name.toList.contains '\x00' || value.toList.contains '\x00' then some .nullCharacter
  else if name.toList.contains '=' then some .invalidName
  else none

/-- The names of entries, each once, at the first place it has. -/
def distinctNames (known : Known) : List String :=
  known.foldl (fun names (name, _) =>
    if names.contains name then names else names ++ [name]) []

/-- What the entries add to the variables that are set. -/
def additions (env : Variables) (known : Known) : Variables :=
  (distinctNames known).filterMap fun name =>
    if (env.lookup name).isSome then none
    else (known.reverse.lookup name).join.map fun value => (name, value)

/-- The variables after the entries have been added to those that are set. -/
def apply (env : Variables) (entries : List Entry) : Except EntryFault Variables :=
  let added := additions env (resolved env entries)
  match added.findSome? fun (name, value) => entryFault? name value with
  | some fault => .error fault
  | none => .ok (env ++ added)

end GraphImport.EnvFile
