import GraphImport.Document.Value
import GraphImport.Toml.Fault
/-!
# TOML tables

A document grows by headers and by keys with values. A table may be declared once, and a table
made by dotted keys is closed at the next header; lists and tables written as values are closed
from the start.
-/
namespace GraphImport.Toml

open Document (Value)

/-- How a table came to be: on the way to another one, by a header, or by dotted keys under the
header of a given number. -/
inductive Origin
  | implied
  | declared
  | dotted (header : Nat)
deriving DecidableEq, Repr

inductive Item
  | value (v : Value)
  | table (origin : Origin) (fields : List (String × Item))
  | array (earlier : List (List (String × Item))) (last : List (String × Item))

abbrev Fields := List (String × Item)

def putField (fields : Fields) (name : String) (item : Item) : Fields :=
  if fields.any fun (known, _) => known == name then
    fields.map fun (known, old) => if known == name then (known, item) else (known, old)
  else fields ++ [(name, item)]

def isCollection : Value → Bool
  | .list _ | .map _ => true
  | _ => false

/-- Why a value cannot be entered or replaced: it is closed if it is a list or a table. -/
def blocked (closed : Cause) (v : Value) : Cause :=
  if isCollection v then closed else .overwritten

/-- Changes the fields to which a path leads, tables being made on the way. -/
def alter (closed : Cause) (change : Fields → Except Cause Fields) :
    Key → Fields → Except Cause Fields
  | [], fields => change fields
  | name :: rest, fields => do
    let item ← match fields.lookup name with
      | none => Item.table .implied <$> alter closed change rest []
      | some (.table origin inner) => Item.table origin <$> alter closed change rest inner
      | some (.array earlier last) => Item.array earlier <$> alter closed change rest last
      | some (.value v) => .error (blocked closed v)
    return putField fields name item

/-- Declares a table by its header. -/
def declare (key : Key) (fields : Fields) : Except Cause Fields :=
  let twice := Cause.declaredTwice key
  let name := key.getLastD ""
  let change (fields : Fields) : Except Cause Fields := match fields.lookup name with
    | none => .ok (putField fields name (.table .declared []))
    | some (.table .implied inner) => .ok (putField fields name (.table .declared inner))
    | some (.value v) => .error (blocked twice v)
    | some _ => .error twice
  alter twice change key.dropLast fields

/-- Adds a table to the array of tables that a header names. -/
def extend (key : Key) (fields : Fields) : Except Cause Fields :=
  let immutable := Cause.immutable key
  let name := key.getLastD ""
  let change (fields : Fields) : Except Cause Fields := match fields.lookup name with
    | none => .ok (putField fields name (.array [] []))
    | some (.array earlier last) => .ok (putField fields name (.array (earlier ++ [last]) []))
    | some (.table ..) => .error .overwritten
    | some (.value v) => .error (blocked immutable v)
  alter immutable change key.dropLast fields

/-- Puts a value under a dotted key, of which some names are passed already. -/
def assignFrom (header : Nat) (passed : Key) (closed : Cause) (v : Value) :
    Key → Fields → Except Cause Fields
  | [], fields => .ok fields
  | [name], fields =>
    if (fields.lookup name).isSome then .error .overwritten
    else .ok (putField fields name (.value v))
  | name :: rest, fields => do
    let here := passed ++ [name]
    let enter (inner : Fields) : Except Cause Item :=
      Item.table (.dotted header) <$> assignFrom header here closed v rest inner
    let item ← match fields.lookup name with
      | none => enter []
      | some (.table origin inner) =>
        if origin == .implied || origin == .dotted header then enter inner
        else .error (.redefined here)
      | some (.array ..) => .error (.redefined here)
      | some (.value v) => .error (blocked closed v)
    return putField fields name item

/-- Puts a value under a key below a header. -/
def assign (header : Nat) (base key : Key) (v : Value) (fields : Fields) : Except Cause Fields :=
  let closed := Cause.immutable (base ++ key.dropLast)
  alter closed (assignFrom header base closed v key) base fields

/-- Puts a value under a key of a table that is written as a value. -/
def assignInline (key : Key) (v : Value) (fields : Fields) : Except Cause Fields :=
  let immutable := Cause.immutable key
  let name := key.getLastD ""
  let change (fields : Fields) : Except Cause Fields := match fields.lookup name with
    | none => .ok (putField fields name (.value v))
    | some (.value known) =>
      .error (if isCollection known then immutable else .repeatedInlineKey name)
    | some _ => .error (.repeatedInlineKey name)
  alter immutable change key.dropLast fields

mutual

def Item.toValue : Item → Value
  | .value v => v
  | .table _ fields => .map (entriesOf fields)
  | .array earlier last => .list (tablesOf earlier ++ [.map (entriesOf last)])

def entriesOf : List (String × Item) → List (Value × Value)
  | [] => []
  | (name, item) :: rest => (.text name, item.toValue) :: entriesOf rest

def tablesOf : List (List (String × Item)) → List Value
  | [] => []
  | fields :: rest => .map (entriesOf fields) :: tablesOf rest

end

end GraphImport.Toml
