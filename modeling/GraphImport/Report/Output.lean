import GraphImport.Json.Printer
import GraphImport.Log.Record
import GraphImport.Spec.File
import GraphImport.Text.Styling
/-!
# Output of a run

What a run shows: text on standard output, and on standard error running text, panels and log
lines in the order in which they come. Problems are reported as a listing or as one JSON document
on a line of its own. Neither output is a terminal, so running text is echoed without sequences
for colours and styles, whoever put them there; a panel keeps them.
-/
namespace GraphImport.Report

open Document (Value)

inductive Item
  | text (s : String)
  | panel (title body : String)
  | log (line : Log.Line)

/-- Running text as it is echoed. -/
def Item.echoed (s : String) : Item :=
  .text (Text.unstyled s)

/-- The width of a tab in a panel. -/
def tabWidth : Nat := 8

/-- Replaces each tab by blanks up to the next multiple of its width. -/
def expandTabs (cs : List Char) : List Char :=
  (cs.foldl (fun line c =>
    if c == '\t' then List.replicate (tabWidth - line.length % tabWidth) ' ' ++ line
    else c :: line) []).reverse

/-- Control characters that a panel leaves out. -/
def isLeftOut (c : Char) : Bool :=
  ['\x07', '\x08', '\x0b', '\x0c', '\r'].contains c

/-- The lines of a panel, without the blanks at their ends. -/
def panelLines (body : String) : List String :=
  let shown := body.toList.filter fun c => !isLeftOut c
  (shown.splitOn '\n').map fun line => String.ofList (Text.trimEnd (expandTabs line))

/-- What stands in a panel: the message, the details as a list, and the hint. -/
def noticeBody (n : Spec.Notice) : String :=
  let details := match n.details with
    | none | some [] => ""
    | some ds => "\n\n" ++ String.join (ds.map fun d => s!"  • {d}\n")
  let hint := match n.hint with
    | none => ""
    | some hint => s!"\nHint: {hint}"
  n.message ++ details ++ hint

def ofNotice (n : Spec.Notice) : Item :=
  .panel n.title (noticeBody n)

/-- How problems are reported. -/
inductive Format
  | console
  | json
deriving DecidableEq, Repr

/-- The words for the formats. -/
def Format.ofWord? : String → Option Format
  | "console" => some .console
  | "json" => some .json
  | _ => none

/-- The report of problems as a JSON document: valid is what has no problems. -/
def document (problems : List String) : Value :=
  .record [("valid", .bool problems.isEmpty), ("problems", .list (problems.map .text))]

def jsonLine (problems : List String) : String :=
  Json.render (document problems)

/-- The listing of problems, one item each under a heading. -/
def listing (problems : List String) : List Item :=
  .text "Validation failed:" :: problems.map fun p => .echoed s!"  - {p}"

/-- What is shown so far, and the code a run ends with. -/
structure Output where
  stdout : String := ""
  stderr : List Item := []

namespace Output

def append (a b : Output) : Output :=
  { stdout := a.stdout ++ b.stdout, stderr := a.stderr ++ b.stderr }

instance : Append Output where
  append := append

def ofItems (items : List Item) : Output :=
  { stderr := items }

def ofLine (line : String) : Output :=
  { stdout := line ++ "\n" }

end Output

/-- The report of problems in a format. -/
def ofProblems (format : Format) (problems : List String) : Output :=
  match format, problems with
  | .json, _ => .ofLine (Text.unstyled (jsonLine problems))
  | .console, [] => .ofLine "Job spec valid."
  | .console, _ => .ofItems (listing problems)

end GraphImport.Report
