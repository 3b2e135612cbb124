import GraphImport.Files.Path
import GraphImport.Text.Quoted
import GraphImport.Text.Utf8
/-!
# Trees of files

The files and directories known to a run, by their paths from the working directory. A directory
is there as soon as something lies in it. A path that leads above the working directory finds the
directories there, but no file in them.
-/
namespace GraphImport.Files

inductive Content
  | file (bytes : List UInt8)
  | directory
deriving DecidableEq, Repr

structure Tree where
  entries : List (Path × Content) := []
deriving Repr

/-- Why a file cannot be read as text. -/
inductive FileFault
  | absent
  | isDirectory (path : Path)
  | longName (path : Path)
  | encoding (fault : Text.Utf8Fault)
deriving DecidableEq, Repr

def FileFault.message : FileFault → String
  | .absent => "No such file or directory"
  | .isDirectory path => s!"[Errno 21] Is a directory: {Text.quoted path.text}"
  | .longName path => s!"[Errno 36] File name too long: {Text.quoted path.text}"
  | .encoding fault => fault.message

/-- The most bytes a name may have. -/
def maxNameSize : Nat := 255

/-- The most bytes a path may have. -/
def maxPathSize : Nat := 4095

def Path.isLong (p : Path) : Bool :=
  p.names.any (fun name => name.utf8ByteSize > maxNameSize) || p.text.utf8ByteSize > maxPathSize

namespace Tree

/-- What lies at names from the working directory on. -/
def at? (t : Tree) (names : List String) : Option Content :=
  match t.entries.find? fun (p, _) => p.root.isEmpty && p.names == names with
  | some (_, content) => some content
  | none =>
    if names.isEmpty || t.entries.any fun (p, _) => p.root.isEmpty && names.isPrefixOf p.names
    then some .directory
    else none

/-- Follows names from a directory, given by its names in reverse and by how many levels it lies
above the working directory. -/
def follow? (t : Tree) : Nat → List String → List String → Option Content
  | _, reached, [] => t.at? reached.reverse
  | above, reached, name :: rest =>
    if name == ".." then
      match reached with
      | _ :: outer => if t.at? reached.reverse == some .directory then follow? t above outer rest
        else none
      | [] => follow? t (above + 1) [] rest
    else if above != 0 || !(rest.isEmpty || t.at? (reached.reverse ++ [name]) == some .directory) then
      none
    else follow? t above (name :: reached) rest

/-- What lies at a path. -/
def find? (t : Tree) (p : Path) : Option Content :=
  match t.entries.find? fun (known, _) => known == p with
  | some (_, content) => some content
  | none =>
    if p.names.any fun name => name.toList.contains '\x00' then none
    else if p.root.isEmpty then t.follow? 0 [] p.names
    else if p.names.all (· == "..") then some .directory
    else none

/-- Whether something lies at a path. -/
def has (t : Tree) (p : Path) : Except FileFault Bool :=
  if p.isLong then .error (.longName p) else .ok (t.find? p).isSome

/-- Line breaks of every style, as line feeds. -/
def unifyBreaks : List Char → List Char
  | '\r' :: '\n' :: rest => '\n' :: unifyBreaks rest
  | '\r' :: rest => '\n' :: unifyBreaks rest
  | c :: rest => c :: unifyBreaks rest
  | [] => []

/-- The text of a file, as it stands. -/
def readExact (t : Tree) (p : Path) : Except FileFault (List Char) :=
  if p.isLong then .error (.longName p)
  else match t.find? p with
    | none => .error .absent
    | some .directory => .error (.isDirectory p)
    | some (.file bytes) => match Text.decodeUtf8 bytes with
      | .ok text => .ok text.toList
      | .error fault => .error (.encoding fault)

/-- The text of a file, its line breaks unified. -/
def read (t : Tree) (p : Path) : Except FileFault (List Char) :=
  unifyBreaks <$> t.readExact p

end Tree
end GraphImport.Files
