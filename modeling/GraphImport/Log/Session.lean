import GraphImport.Log.Record
import GraphImport.Rules.Examination
import GraphImport.Spec.Dump
/-!
# Logging

A logging session has a level for all loggers and one, never below warning, for the loggers of the
parsers. Fields can be bound for all records to come. A record is made whether its level is in
force or not, so that arguments that do not fit are always noticed; it is written if the level is
in force and the session is open. A session begins with logging set up at the level of warnings,
its records discarded; the first configuration that takes hold opens it.
-/
namespace GraphImport.Log

open Document (Value)

structure Session where
  level : Level := .warning
  parserLevel : Level := .warning
  style : Style := .console
  /-- Whether a configuration has taken hold, so that records are written somewhere. -/
  isOpen : Bool := false
  bound : Fields := []

/-- Why a level cannot be set. -/
inductive LevelFault
  | unknown (name : String)
  | notLevel (display : String)
  | notLevelOrName (display : String)
deriving DecidableEq, Repr

def LevelFault.message : LevelFault → String
  | .unknown name => s!"module 'logging' has no attribute '{name}'"
  | .notLevel display => s!"Unknown level: {Text.quoted display}"
  | .notLevelOrName display => s!"Level not an integer or a valid string: {display}"

/-- Names that belong to layouts of records and not to levels, with what they stand for. -/
def layoutFault? (name : String) : Option LevelFault :=
  if name == "BASIC_FORMAT" then some (.notLevel "%(levelname)s:%(name)s:%(message)s")
  else if name == "_STYLES" then
    some (.notLevelOrName ("\x7b'%': (<class 'logging.PercentStyle'>, " ++
      "'%(levelname)s:%(name)s:%(message)s'), '\x7b': (<class 'logging.StrFormatStyle'>, " ++
      "'\x7blevelname\x7d:\x7bname\x7d:\x7bmessage\x7d'), '$': " ++
      "(<class 'logging.StringTemplateStyle'>, " ++
      "'$\x7blevelname\x7d:$\x7bname\x7d:$\x7bmessage\x7d')\x7d"))
  else none

/-- The loggers of the parsers, whose records below warning are left out. -/
def parserLoggers : List String := ["dynaconf", "yaml"]

/-- The loggers that one lies below, the nearest first, all their names read backwards. A dot that
stands right before another that was found is passed over. -/
def outerNames : List Char → List (List Char)
  | '.' :: c :: rest => (c :: rest) :: outerNames rest
  | _ :: rest => outerNames rest
  | [] => []

/-- Whether a logger is one of the parsers', or lies below one. -/
def isParserLogger (logger : String) : Bool :=
  parserLoggers.any fun name =>
    logger == name || (outerNames logger.toList.reverse).contains name.toList.reverse

/-- A request to log. -/
structure Call where
  level : Level
  event : String
  arguments : List Value := []
  fields : Fields := []
  /-- How the stack of the caller reads, for a record that is asked to tell it. -/
  stack : String := ""

/-- Why no record can be made from a call. -/
inductive CallFault
  | nameTaken (level : Level) (name : String)
  | template (fault : TemplateFault)
  | uncounted (kind : String)
  | unindexed (kind : String)
  | firstMissing
deriving DecidableEq, Repr

/-- The names under which a call passes its own parts on: first to the method for its level, and
from there to the one that all levels share. -/
def methodNames : List String := ["self", "event"]

def sharedMethodNames : List String := ["method_name"]

def CallFault.message : CallFault → String
  | .nameTaken level name =>
    let method := if methodNames.contains name then level.label else "_proxy_to_logger"
    s!"BoundLogger.{method}() got multiple values for argument '{name}'"
  | .template fault => fault.message
  | .uncounted kind => s!"object of type '{kind}' has no len()"
  | .unindexed kind => s!"'{kind}' object is not subscriptable"
  | .firstMissing => "0"

/-- The field that holds arguments for the event. -/
def argumentsField : String := "positional_args"

/-- Fields that are not written: they are taken by the record itself, or ask for a stack or where a
fault arose. Calls are made while no fault is being handled, so nothing is told of one. -/
def reserved : List String :=
  ["event", "level", "timestamp", "_record", "_from_structlog", "stack_info", "exc_info"]

/-- Arguments from a value with one part: this part if it is a mapping with entries, else the value
as it is. -/
def Arguments.ofPart (v part : Value) : Arguments :=
  match part with
  | .map (_ :: _) => .ofValue part
  | _ => .ofValue v

/-- Arguments that a field holds; none when it is empty. When it has one part, this is looked up
under zero. -/
def fieldArguments? (v : Value) : Except CallFault (Option Arguments) :=
  if v.isEmpty then .ok none
  else match v with
    | .text _ | .brokenText | .bytes _ => .ok (some (.ofValue v))
    | .list [part] => .ok (some (.ofPart v part))
    | .list _ => .ok (some (.ofValue v))
    | .map [(key, part)] =>
      if key.sameKey (.int 0) then .ok (some (.ofPart v part)) else .error .firstMissing
    | .map _ => .ok (some (.ofValue v))
    | .set [_] => .error (.unindexed v.kind)
    | .set _ => .ok (some (.ofValue v))
    | _ => .error (.uncounted v.kind)

/-- Fills in an event. -/
def fillEvent (event : String) (arguments? : Option Arguments) : Except CallFault String :=
  match arguments? with
  | none => .ok event
  | some arguments => (fill event arguments).mapError .template

/-- The first field whose name is one of those given. -/
def firstNamed? (fields : Fields) (names : List String) : Option String :=
  (fields.find? fun field => names.contains field.1).map (·.1)

/-- Fields with the stack of the caller, when one of them asks for it. -/
def withStack (stack : String) (fields : Fields) : Fields :=
  if (fields.lookup "stack_info").any (!·.isEmpty) then
    fields.filter (fun field => field.1 != "stack") ++ [("stack", .text stack)]
  else fields

namespace Session

/-- Configures a session. A name that is no level may belong to a layout; then the style changes
all the same. -/
def configure (s : Session) (style : Style) (name : String) : Session × Option LevelFault :=
  match Level.ofName? name with
  | some level =>
    ({ s with level, parserLevel := level.max .warning, style, isOpen := true }, none)
  | none =>
    let name := Text.capitals name
    match layoutFault? name with
    | some fault => ({ s with style, isOpen := true }, some fault)
    | none => (s, some (.unknown name))

/-- Binds fields, the later ones overriding the earlier ones. -/
def bind (s : Session) (fields : Fields) : Session :=
  { s with bound := s.bound.filter (fun (name, _) => !fields.any (·.1 == name)) ++ fields }

def unbind (s : Session) : Session :=
  { s with bound := [] }

/-- The least level a logger writes. -/
def threshold (s : Session) (logger : String) : Level :=
  if isParserLogger logger then s.parserLevel else s.level

/-- Nothing is written at the level that stands for none. -/
def writes (s : Session) (logger : String) (level : Level) : Bool :=
  s.isOpen && level != .notSet && (s.threshold logger).number ≤ level.number

/-- The fields of a call and the bound ones it does not have itself. -/
def joined (s : Session) (fields : Fields) : Fields :=
  fields ++ s.bound.filter fun (name, _) => !fields.any (·.1 == name)

/-- The fields of a record. An argument field stays only when it is null. -/
def kept (fields : Fields) : Fields :=
  fields.filter fun (name, v) =>
    !reserved.contains name && (name != argumentsField || v matches .null)

/-- Makes the record of a call. Its own arguments come before those a field holds. -/
def record (s : Session) (c : Call) : Except CallFault Record := do
  let own := if c.arguments.isEmpty then c.fields
    else c.fields.filter fun (name, _) => name != argumentsField
  let fields := s.joined own
  if c.arguments.isEmpty then
    let arguments? ← fieldArguments? ((fields.lookup argumentsField).getD .null)
    return { level := c.level, event := ← fillEvent c.event arguments?,
             fields := kept (withStack c.stack fields) }
  else
    let event ← fillEvent c.event (some (.ofList c.arguments))
    let fields := fields.filter fun (name, _) => name != argumentsField
    return { level := c.level, event, fields := kept (withStack c.stack fields) }

/-- The lines of a record, if the logger writes its level. -/
def write (s : Session) (logger : String) (r : Record) : List Line :=
  if s.writes logger r.level then r.lines s.style else []

/-- Logs a call with fields, none of which may have the name of a part of the call itself. -/
def log (s : Session) (logger : String) (c : Call) : Except CallFault (List Line) :=
  match (firstNamed? c.fields methodNames).or (firstNamed? c.fields sharedMethodNames) with
  | some name => .error (.nameTaken c.level name)
  | none => s.write logger <$> s.record c

/-- The record of a call without fields, whose arguments are filled in before any bound ones. -/
def plainRecord (s : Session) (c : Call) : Except CallFault Record := do
  let arguments? := if c.arguments.isEmpty then none else some (.ofList c.arguments)
  s.record { level := c.level, event := ← fillEvent c.event arguments?, stack := c.stack }

/-- Logs a call without fields. When its arguments do not fit, nothing is written. -/
def logPlain (s : Session) (logger : String) (c : Call) : List Line :=
  match s.plainRecord c with
  | .ok r => s.write logger r
  | .error _ => []

end Session

open Rules (Finding Note)

/-- The logger of the rules. -/
def rulesLogger : String := "graphload.rules"

def ofNote : Note → Call
  | .checkingOrderBy source => {
      level := .debug
      event := "checking_source_order_by"
      fields := [("source", .text source)] }
  | .invalidNodeTarget target => {
      level := .info
      event := "invalid_node_target"
      fields := [("target", target.toDocument)] }
  | .validated sources targets actions problems => {
      level := .info
      event := "job_spec_validated"
      fields := [("sources", .int sources), ("targets", .int targets), ("actions", .int actions),
        ("problems", .int problems)] }

/-- Logs notes in order, up to one of which no record can be made. -/
def Session.logNotes (s : Session) : List Note → List Line × Option CallFault
  | [] => ([], none)
  | note :: rest => match s.log rulesLogger (ofNote note) with
    | .error fault => ([], some fault)
    | .ok lines =>
      let (later, fault) := s.logNotes rest
      (lines ++ later, fault)

/-- Why a job spec cannot be examined. -/
inductive ExaminationFault
  | rules (fault : Rules.UnknownTargetType)
  | log (fault : CallFault)
deriving DecidableEq, Repr

/-- Examines a job spec while the notes made on the way are logged. A note of which no record can
be made ends the examination. -/
def Session.examine (s : Session) (spec : Spec.JobSpec) :
    List Line × Except ExaminationFault (List Rules.Problem) :=
  match s.logNotes (Rules.notesOf spec) with
  | (lines, some fault) => (lines, .error (.log fault))
  | (lines, none) => (lines, (Rules.problemsOf spec).mapError .rules)

end GraphImport.Log
