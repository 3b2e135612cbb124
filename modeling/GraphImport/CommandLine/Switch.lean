import GraphImport.Text.Quoted
import GraphImport.Text.Similarity
/-!
# Switches

A command knows switches by a long name, and some by a letter as well. A switch may take a value,
which is the next argument or stands after a sign of equality or right after the letter; letters
of switches without values may be written together. Two dashes end the switches.
-/
namespace GraphImport.CommandLine

/-- Why arguments cannot be used. -/
inductive UsageFault
  | noSuchOption (name : String) (similar : List String)
  | valueMissing (name : String)
  | valueUnwanted (name : String)
  | invalidFormat (value : String)
  | extraArguments (arguments : List String)
  | commandMissing
  | noSuchCommand (name : String) (similar : List String)
deriving DecidableEq, Repr

namespace UsageFault

def message : UsageFault → String
  | .noSuchOption name similar =>
    let sorted := similar.mergeSort (· ≤ ·)
    let hint := if similar.isEmpty then ""
      else " (Possible options: " ++ ", ".intercalate sorted ++ ")"
    s!"No such option: {name}{hint}"
  | .valueMissing name => s!"Option {Text.quoted name} requires an argument."
  | .valueUnwanted name => s!"Option {Text.quoted name} does not take a value."
  | .invalidFormat value => "Invalid value for '--format' / '-f': Value error, " ++
      s!"{Text.quoted value} is not one of 'console', 'json'."
  | .extraArguments arguments =>
    "Got unexpected extra argument(s) (" ++ " ".intercalate arguments ++ ")"
  | .commandMissing => "Missing command."
  | .noSuchCommand name similar =>
    let hint := if similar.isEmpty then ""
      else " Did you mean " ++ ", ".intercalate (similar.map Text.quoted) ++ "?"
    s!"No such command {Text.quoted name}.{hint}"

/-- Whether the usage of the command is shown with a fault. -/
def showsUsage : UsageFault → Bool
  | .valueMissing _ | .valueUnwanted _ => false
  | _ => true

end UsageFault

/-- A switch of a command, which stands for an option. -/
structure Switch (α : Type) where
  option : α
  long : String
  letter : Option Char := none
  takesValue : Bool := false

/-- The options given, in order and with their values, and the other arguments. -/
structure Parsed (α : Type) where
  options : List (α × Option String) := []
  arguments : List String := []

namespace Switch

variable {α : Type}

/-- The value of a switch: what is attached to it, or the next argument. -/
def value (name : String) (attached : Option String) (rest : List String) :
    Except UsageFault (Option String × List String) :=
  match attached, rest with
  | some v, _ => .ok (some v, rest)
  | none, v :: rest => .ok (some v, rest)
  | none, [] => .error (.valueMissing name)

/-- Reads letters written together; the rest after a letter that takes a value is the value. -/
def letters (switches : List (Switch α)) (rest : List String) :
    List Char → Except UsageFault (List (α × Option String) × List String)
  | [] => .ok ([], rest)
  | c :: more =>
    let name := String.ofList ['-', c]
    match switches.find? fun s => s.letter == some c with
    | none => .error (.noSuchOption name [])
    | some s =>
      if s.takesValue then do
        let attached := if more.isEmpty then none else some (String.ofList more)
        let (v, rest) ← value name attached rest
        return ([(s.option, v)], rest)
      else do
        let (options, rest) ← letters switches rest more
        return ((s.option, none) :: options, rest)

/-- Splits an argument at its first sign of equality. -/
def splitValue (arg : String) : String × Option String :=
  let cs := arg.toList
  let name := cs.takeWhile (· != '=')
  (String.ofList name,
    if name.length == cs.length then none else some (String.ofList (cs.drop (name.length + 1))))

/-- Reads an argument that begins with a dash. -/
def read (switches : List (Switch α)) (arg : String) (rest : List String) :
    Except UsageFault (List (α × Option String) × List String) :=
  let (name, attached) := splitValue arg
  match switches.find? fun s => s.long == name with
  | some s =>
    if s.takesValue then do
      let (v, rest) ← value name attached rest
      return ([(s.option, v)], rest)
    else if attached.isSome then .error (.valueUnwanted name)
    else .ok ([(s.option, none)], rest)
  | none =>
    if "--".isPrefixOf arg then
      .error (.noSuchOption name (Text.similarWords name (switches.map (·.long))))
    else letters switches rest (arg.toList.drop 1)

/-- Reads arguments. The first one that is no switch ends them, or is put aside if switches may
follow it. -/
def parseFrom (switches : List (Switch α)) (mayFollow : Bool) :
    Nat → List String → Except UsageFault (Parsed α)
  | 0, args => .ok { arguments := args }
  | fuel + 1, args => match args with
    | [] => .ok {}
    | arg :: rest =>
      if arg == "--" then .ok { arguments := rest }
      else if "-".isPrefixOf arg && arg != "-" then do
        let (options, rest) ← read switches arg rest
        let later ← parseFrom switches mayFollow fuel rest
        return { later with options := options ++ later.options }
      else if mayFollow then do
        let later ← parseFrom switches mayFollow fuel rest
        return { later with arguments := arg :: later.arguments }
      else .ok { arguments := args }

def parse (switches : List (Switch α)) (mayFollow : Bool) (args : List String) :
    Except UsageFault (Parsed α) :=
  parseFrom switches mayFollow (args.length + 1) args

end Switch

/-- The value of an option; the last one counts. -/
def Parsed.value? {α : Type} [BEq α] (p : Parsed α) (option : α) : Option String :=
  (p.options.reverse.find? fun (o, _) => o == option).bind (·.2)

def Parsed.has {α : Type} [BEq α] (p : Parsed α) (option : α) : Bool :=
  p.options.any fun (o, _) => o == option

end GraphImport.CommandLine
