/-!
# Paths

A path is a root, empty for a relative path, and the names below it. Empty names and single dots
say nothing and are dropped; double dots stay.
-/
namespace GraphImport.Files

structure Path where
  root : String := ""
  names : List String := []
deriving DecidableEq, Repr, Inhabited

/-- The home directory of the user who runs the program, and those of users that are known by
name. -/
structure Homes where
  own : Path := {}
  ofUser : String → Option Path := fun _ => none

instance : Coe Path Homes := ⟨fun own => { own }⟩

namespace Path

/-- The names in a text between slashes. -/
def namesIn (text : String) : List String :=
  ((text.toList.splitOn '/').map String.ofList).filter fun name => name != "" && name != "."

/-- Reads a path. Exactly two leading slashes are a root of their own. -/
def ofText (text : String) : Path :=
  let slashes := (text.toList.takeWhile (· == '/')).length
  { root := if slashes == 0 then "" else if slashes == 2 then "//" else "/"
    names := namesIn text }

def text (p : Path) : String :=
  if p.root.isEmpty && p.names.isEmpty then "." else p.root ++ "/".intercalate p.names

/-- The last name. -/
def name (p : Path) : String :=
  p.names.getLastD ""

def append (p : Path) (names : List String) : Path :=
  { p with names := p.names ++ names }

def endsWith (p : Path) (endings : List String) : Bool :=
  endings.any fun ending => ending.toList.isSuffixOf p.text.toList

/-- Replaces a leading tilde, with or without the name of a user, by a home directory. -/
def expandHome? (p : Path) (homes : Homes) : Option Path :=
  match p.root.isEmpty, p.names with
  | true, first :: rest =>
    if first == "~" then some (homes.own.append rest)
    else if first.startsWith "~" then
      let user := String.ofList (first.toList.drop 1)
      (homes.ofUser user).map fun home => home.append rest
    else some p
  | _, _ => some p

end Path
end GraphImport.Files
