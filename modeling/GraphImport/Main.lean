import GraphImport.CommandLine.Run
/-!
# The program

Gathers what a run finds around it and shows what it puts out. Files are read in two rounds, since
the settings may name the job spec.
-/
namespace GraphImport

open CommandLine (Outcome Surroundings)
open Files (Content Homes Path Tree)

/-- Splits bytes at the zero bytes that end their parts. -/
def partsOf (bytes : List UInt8) : List (List UInt8) :=
  let (parts, last) := bytes.foldr (fun b (parts, part) =>
    if b == 0 then (part :: parts, []) else (parts, b :: part)) ([], [])
  last :: parts

/-- A variable from its text, the name before the first sign of equality. -/
def variableOf? (bytes : List UInt8) : Option (String × String) :=
  match Text.decodeUtf8 bytes with
  | .error _ => none
  | .ok text =>
    let name := text.toList.takeWhile (· != '=')
    if name.isEmpty || name.length == text.length then none
    else some (String.ofList name, String.ofList (text.toList.drop (name.length + 1)))

/-- The environment of this process. -/
def readEnvironment : IO (List (String × String)) := do
  try
    let bytes ← IO.FS.readBinFile "/proc/self/environ"
    return (partsOf bytes.toList).filterMap variableOf?
  catch _ => return []

/-- The home directory that a table of users has for a name. -/
def homeIn? (table : String) (user : String) : Option Path :=
  (table.splitOn "\n").findSome? fun line => match line.splitOn ":" with
    | [name, _, _, _, _, home, _] => if name == user then some (Path.ofText home) else none
    | _ => none

/-- The home directories on this machine. -/
def readHomes (env : List (String × String)) : IO Homes := do
  let own := Path.ofText ((env.lookup "HOME").getD ".")
  try
    let table ← IO.FS.readFile "/etc/passwd"
    return { own, ofUser := homeIn? table }
  catch _ => return { own }

/-- What lies at a path, if anything does. -/
def readContent (path : Path) : IO (Option Content) := do
  try
    let bytes ← IO.FS.readBinFile path.text
    return some (.file bytes.toList)
  catch _ =>
    try
      discard (IO.FS.Handle.mk path.text .read)
      return some .directory
    catch _ => return none

def readTree (paths : List Path) : IO Tree := do
  let entries ← paths.filterMapM fun path => do
    return (← readContent path).map fun content => (path, content)
  return { entries }

def showItem (err : IO.FS.Stream) : Report.Item → IO Unit
  | .text s => err.putStrLn s
  | .panel title body => do
    err.putStrLn s!"── {title} ──"
    for line in Report.panelLines body do
      err.putStrLn line
  | .log (.document fields) => err.putStrLn (Json.render fields)
  | .log (.text line) =>
    err.putStrLn (String.ofList (line.toList.drop (Log.timeMark.length + 1)))

def showOutcome (o : Outcome) : IO UInt32 := do
  (← IO.getStdout).putStr o.output.stdout
  let err ← IO.getStderr
  for item in o.output.stderr do
    showItem err item
  match o.escaped with
  | some fault => err.putStrLn fault.message
  | none => pure ()
  return UInt32.ofNat o.exitCode

/-- Runs the program on the files and the environment of this process. -/
def runHere (args : List String) : IO UInt32 := do
  let env ← readEnvironment
  let around : Surroundings := { env, home := ← readHomes env }
  let around := { around with files := ← readTree (CommandLine.pathsFor around args) }
  let around := { around with files := ← readTree (CommandLine.pathsFor around args) }
  showOutcome (CommandLine.run around args)

end GraphImport

def main (args : List String) : IO UInt32 :=
  GraphImport.runHere args
