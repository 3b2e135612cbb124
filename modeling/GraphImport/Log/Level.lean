import GraphImport.Text.Capital
/-!
# Log levels

Levels are ordered by their numbers. A level has one or two names.
-/
namespace GraphImport.Log

inductive Level
  | notSet
  | debug
  | info
  | warning
  | error
  | critical
deriving DecidableEq, Repr, Inhabited

namespace Level

def number : Level → Nat
  | .notSet => 0
  | .debug => 10
  | .info => 20
  | .warning => 30
  | .error => 40
  | .critical => 50

/-- What a record says its level is. -/
def label : Level → String
  | .notSet => "notset"
  | .debug => "debug"
  | .info => "info"
  | .warning => "warning"
  | .error => "error"
  | .critical => "critical"

def names : List (String × Level) :=
  [("NOTSET", .notSet), ("DEBUG", .debug), ("INFO", .info), ("WARNING", .warning),
    ("WARN", .warning), ("ERROR", .error), ("CRITICAL", .critical), ("FATAL", .critical)]

/-- The level of a name in any case. -/
def ofName? (name : String) : Option Level :=
  names.lookup (Text.capitals name)

/-- The more restrictive of two levels. -/
def max (a b : Level) : Level :=
  if a.number < b.number then b else a

end Level
end GraphImport.Log
