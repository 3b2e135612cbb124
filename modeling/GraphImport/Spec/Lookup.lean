import GraphImport.Spec.Basic
import GraphImport.Text.Blank
/-!
# Looking up mappings

A mapping carries its constant unless that is blank, and otherwise its field unless that is
blank. The values of a target for one fragment and a set of roles are what its mappings carry,
in order.
-/
namespace GraphImport.Spec

/-- Text that is not blank. -/
def filled? : Option String → Option String
  | some s => if Text.isBlank s then none else some s
  | none => none

/-- The value a mapping carries: a filled constant, or else a filled field. -/
def Mapping.carried? (m : Mapping) : Option String :=
  (filled? m.constant).orElse fun _ => filled? m.field

/-- What the mappings of a fragment with one of the roles carry. -/
def Target.carried (t : Target) (fragment : FragmentType) (roles : List RoleType) : List String :=
  (t.mappings.filter fun m => m.fragment == fragment && roles.contains m.role).filterMap
    Mapping.carried?

/-- The first value carried, or the empty text. -/
def Target.firstCarried (t : Target) (fragment : FragmentType) (roles : List RoleType) : String :=
  ((t.carried fragment roles).head?).getD ""

/-- Whether some mapping reads a field. -/
def Target.mapsField (t : Target) : Option String → Bool
  | none => false
  | some name => t.mappings.any fun m => m.field == some name

end GraphImport.Spec
