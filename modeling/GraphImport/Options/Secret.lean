import GraphImport.Text.Blank
import GraphImport.Text.Quoted
/-!
# Secret references

A reference names one version of a secret in a project:
`projects/<project>/secrets/<secret>/versions/<version>`. Each of the three parts is non-empty
and holds neither a slash nor a space.
-/
namespace GraphImport.Options

structure SecretVersion where
  project : String
  secret : String
  version : String
deriving DecidableEq, Repr

namespace SecretVersion

def render (r : SecretVersion) : String :=
  s!"projects/{r.project}/secrets/{r.secret}/versions/{r.version}"

/-- A part may hold anything but slashes and spaces. -/
def isPart (cs : List Char) : Bool :=
  !cs.isEmpty && cs.all fun c => c != '/' && !Text.isSpace c

/-- The pieces between slashes; text without a slash is one piece. -/
def pieces : List Char → List (List Char)
  | [] => [[]]
  | c :: cs =>
    if c == '/' then [] :: pieces cs
    else match pieces cs with
      | [] => [[c]]
      | piece :: rest => (c :: piece) :: rest

/-- Reads a reference. -/
def parse? (s : String) : Option SecretVersion :=
  match pieces s.toList with
  | [a, project, b, secret, c, version] =>
    if a == "projects".toList && b == "secrets".toList && c == "versions".toList &&
        isPart project && isPart secret && isPart version then
      some {
        project := String.ofList project
        secret := String.ofList secret
        version := String.ofList version }
    else none
  | _ => none

end SecretVersion

/-- Text that is no secret reference. -/
structure InvalidSecret where
  text : String
deriving DecidableEq, Repr

def InvalidSecret.message (e : InvalidSecret) : String :=
  s!"Not a secret version reference: {Text.quoted e.text}"

end GraphImport.Options
