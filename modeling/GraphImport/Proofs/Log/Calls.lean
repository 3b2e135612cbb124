import GraphImport.Proofs.Log.Notes

/-!
# What becomes of a call

The record of a call has its event, with the arguments of the call or those of a field filled in,
and its fields beside the bound ones. A call without fields may also be logged plainly; then its
own arguments are filled in first, and the bound ones into what comes of it. When no arguments are
bound the two ways lead to the same record.
-/

namespace GraphImport.Log

open Document (Value)

/-- The arguments a call brings along. -/
def Call.ownArguments? (c : Call) : Option Arguments :=
  if c.arguments.isEmpty then none else some (.ofList c.arguments)

/-- The event of a call with its own arguments filled in. -/
def Call.filled (c : Call) : Except CallFault String :=
  fillEvent c.event c.ownArguments?

/-- What is left to log of a plain call once its own arguments are filled in. -/
def Call.refilled (c : Call) (filled : String) : Call where
  level := c.level
  event := filled
  stack := c.stack

/-- Names that no field of a call can have, since parts of the call itself are passed under them. -/
def takenNames : List String := ["self", "event", "method_name"]

/-- Fields that are not shown as they are: one holds arguments, and the others ask where a call or
a fault arose. -/
def interpretedFields : List String := [argumentsField, "stack_info", "exc_info"]

namespace Session

/-- What the event of a call is filled in with: its own arguments, or else those that a field of
the call or a bound one holds. -/
def argumentsFor (s : Session) (c : Call) : Except CallFault (Option Arguments) :=
  if c.arguments.isEmpty then
    fieldArguments? (((s.joined c.fields).lookup argumentsField).getD .null)
  else .ok c.ownArguments?

/-- The event that the record of a call tells. -/
def eventOf (s : Session) (c : Call) : Except CallFault String :=
  s.argumentsFor c >>= fillEvent c.event

/-- The fields that the record of a call shows. The arguments of a call take the place of a field
for them. -/
def fieldsOf (s : Session) (c : Call) : Fields :=
  if c.arguments.isEmpty then kept (withStack c.stack (s.joined c.fields))
  else kept (withStack c.stack
    ((s.joined c.fields).filter fun field => field.1 != argumentsField))

/-- The record of a call whose event is filled in. -/
def recordOf (s : Session) (c : Call) (event : String) : Record :=
  { level := c.level, event, fields := s.fieldsOf c }

theorem any_filter_ne (fields : Fields) {name other : String} (h : name ≠ other) :
    (fields.filter fun field => field.1 != other).any (·.1 == name) =
      fields.any (·.1 == name) := by
  rw [List.any_filter]
  congr 1
  funext field
  by_cases hname : field.1 = name <;> simp [hname, h]

/-- Leaving out a name before or after the bound fields are put in comes to the same. -/
theorem filter_joined (s : Session) (fields : Fields) (name : String) :
    (s.joined (fields.filter fun field => field.1 != name)).filter (fun field => field.1 != name) =
      (s.joined fields).filter fun field => field.1 != name := by
  rw [joined, joined, List.filter_append, List.filter_append, List.filter_filter,
    List.filter_filter, List.filter_filter]
  congr 1
  · simp only [Bool.and_self]
  · apply List.filter_congr
    rintro ⟨key, v⟩ _
    dsimp only
    by_cases hkey : key = name
    · simp [hkey]
    · rw [any_filter_ne fields hkey]

/-- A record is made of a call once its event is filled in. -/
theorem record_eq (s : Session) (c : Call) :
    s.record c = s.eventOf c >>= fun event => .ok (s.recordOf c event) := by
  rw [record, eventOf, argumentsFor]
  unfold recordOf fieldsOf Call.ownArguments?
  cases hown : c.arguments.isEmpty with
  | true =>
    simp only [if_true]
    cases fieldArguments? (((s.joined c.fields).lookup argumentsField).getD .null) with
    | error fault => rfl
    | ok arguments? =>
      change (fillEvent c.event arguments? >>= _) = fillEvent c.event arguments? >>= _
      cases fillEvent c.event arguments? <;> rfl
  | false =>
    have hfields := congrArg (fun fields => kept (withStack c.stack fields))
      (s.filter_joined c.fields argumentsField)
    simp only [Bool.false_eq_true, if_false]
    change (fillEvent c.event (some (.ofList c.arguments)) >>= _) =
      fillEvent c.event (some (.ofList c.arguments)) >>= _
    cases fillEvent c.event (some (.ofList c.arguments)) with
    | error fault => rfl
    | ok event =>
      exact congrArg (fun fields => Except.ok (Record.mk c.level event fields)) hfields

theorem log_of_eventOf {s : Session} {c : Call} {event : String}
    (hnames : ∀ name ∈ takenNames, name ∉ c.fields.map Prod.fst) (h : s.eventOf c = .ok event)
    (logger : String) : s.log logger c = .ok (s.write logger (s.recordOf c event)) := by
  rw [log_of_unnamed s hnames, record_eq, h]
  rfl

/-- A plain call is one whose event was filled in before. -/
theorem logPlain_of_eventOf {s : Session} {c : Call} {filled event : String}
    (hfilled : c.filled = .ok filled)
    (h : s.eventOf (c.refilled filled) = .ok event) (logger : String) :
    s.logPlain logger c = s.write logger (s.recordOf (c.refilled filled) event) := by
  have hrecord : s.plainRecord c = .ok (s.recordOf (c.refilled filled) event) := by
    change c.filled >>= _ = _
    rw [hfilled]
    change s.record (c.refilled filled) = _
    rw [record_eq, h]
    rfl
  rw [logPlain, hrecord]

/-- Names that neither field list has are not among the joined fields. -/
theorem notMem_joined {s : Session} {fields : Fields} {name : String}
    (hbound : name ∉ s.bound.map Prod.fst) (hfields : name ∉ fields.map Prod.fst) :
    name ∉ (s.joined fields).map Prod.fst := by
  rw [joined, List.map_append, List.mem_append, not_or]
  refine ⟨hfields, fun hname => ?_⟩
  obtain ⟨field, hfield, rfl⟩ := List.mem_map.mp hname
  exact hbound (List.mem_map_of_mem (List.mem_filter.mp hfield).1)

theorem withStack_of_notMem {fields : Fields} (h : "stack_info" ∉ fields.map Prod.fst)
    (stack : String) : withStack stack fields = fields := by
  rw [withStack, lookup_eq_none_of_notMem h]
  rfl

section Unbound

variable {s : Session} {c : Call}
  (hbound : ∀ name ∈ interpretedFields, name ∉ s.bound.map Prod.fst)
  (hfields : ∀ name ∈ interpretedFields, name ∉ c.fields.map Prod.fst)

include hbound hfields

theorem eventOf_of_unbound : s.eventOf c = c.filled := by
  have hnull : ((s.joined c.fields).lookup argumentsField).getD .null = .null := by
    rw [s.lookup_joined (hfields _ List.mem_cons_self), boundArguments,
      lookup_eq_none_of_notMem (hbound _ List.mem_cons_self)]
    rfl
  rw [eventOf, argumentsFor, hnull, Call.filled, Call.ownArguments?]
  cases c.arguments.isEmpty <;> rfl

theorem fieldsOf_of_unbound :
    s.fieldsOf c = (s.joined c.fields).filter fun field => !reserved.contains field.1 := by
  have hjoined : ∀ name ∈ interpretedFields, name ∉ (s.joined c.fields).map Prod.fst :=
    fun name hname => notMem_joined (hbound name hname) (hfields name hname)
  have hname {field : String × Value} (h : field ∈ s.joined c.fields) :
      (field.1 != argumentsField) = true := by
    rw [bne_iff_ne]
    intro hfield
    exact hjoined _ List.mem_cons_self (hfield ▸ List.mem_map_of_mem h)
  have hothers : ((s.joined c.fields).filter fun field => field.1 != argumentsField) =
      s.joined c.fields := List.filter_eq_self.mpr fun _ => hname
  rw [fieldsOf, hothers, ite_self,
    withStack_of_notMem (hjoined _ (List.mem_cons_of_mem _ List.mem_cons_self))]
  apply List.filter_congr
  intro field hfield
  dsimp only
  rw [hname hfield, Bool.true_or, Bool.and_true]

end Unbound

end Session

/-- When its arguments fit, a call without fields comes to the same in either way in an open session,
as long as no field is bound that is not shown as it is: to nothing when its level is not in force,
and otherwise to its record, which tells the event with the arguments filled in and shows the bound
fields. -/
theorem callers_alike (s : Session) (logger : String) (c : Call) (text : String)
    (hopen : s.isOpen = true) (hbound : ∀ name ∈ interpretedFields, name ∉ s.bound.map Prod.fst)
    (hfields : c.fields = []) (hfits : c.filled = .ok text) :
    ∃ r : Record, r.level = c.level ∧ r.event = text ∧
      r.fields = s.bound.filter (fun field => !reserved.contains field.1) ∧
      s.log logger c = .ok (s.logPlain logger c) ∧
      s.logPlain logger c =
        if c.level ≠ .notSet ∧ (s.threshold logger).number ≤ c.level.number then r.lines s.style
        else [] := by
  have hnone {name : String} : name ∉ c.fields.map Prod.fst := by
    rw [hfields]
    exact List.not_mem_nil
  have hlog := Session.log_of_eventOf (fun _ _ => hnone)
    ((Session.eventOf_of_unbound hbound fun _ _ => hnone).trans hfits) logger
  have hrefilled : ∀ name ∈ interpretedFields, name ∉ (c.refilled text).fields.map Prod.fst :=
    fun _ _ => List.not_mem_nil
  have hplain := Session.logPlain_of_eventOf hfits
    (Session.eventOf_of_unbound hbound hrefilled) logger
  have hsame : s.recordOf (c.refilled text) text = s.recordOf c text := by
    rw [Session.recordOf, Session.fieldsOf_of_unbound hbound hrefilled, Session.recordOf,
      Session.fieldsOf_of_unbound hbound fun _ _ => hnone, hfields]
    rfl
  have hshown : s.fieldsOf c = s.bound.filter fun field => !reserved.contains field.1 := by
    have hjoined : s.joined [] = s.bound := List.filter_eq_self.mpr fun _ _ => rfl
    rw [Session.fieldsOf_of_unbound hbound fun _ _ => hnone, hfields, hjoined]
  change s.logPlain logger c = s.write logger (s.recordOf (c.refilled text) text) at hplain
  rw [hsame] at hplain
  refine ⟨s.recordOf c text, rfl, rfl, hshown, hlog.trans (congrArg Except.ok hplain.symm), ?_⟩
  have hdue : s.writes logger c.level = true ↔
      c.level ≠ .notSet ∧ (s.threshold logger).number ≤ c.level.number := by
    rw [Session.writes, hopen, Bool.true_and, Bool.and_eq_true, bne_iff_ne, decide_eq_true_eq]
  rw [hplain]
  exact ite_congr (propext hdue) (fun _ => rfl) fun _ => rfl

/-- A session with a bound field that has the name of the event, and another. -/
def importing : Session where
  level := .info
  style := .json
  isOpen := true
  bound := [("event", .text "import"), ("job", .int 7)]

/-- A call with one mapping for all its arguments. -/
def rowsRead : Call where
  level := .warning
  event := "%(rows)d rows read, 100%%"
  arguments := [.record [("rows", .int 3)]]

theorem rowsRead_alike :
    importing.isOpen = true ∧
      (∀ name ∈ interpretedFields, name ∉ importing.bound.map Prod.fst) ∧ rowsRead.fields = [] ∧
      rowsRead.filled = .ok "3 rows read, 100%" ∧
      importing.log "yaml.reader" rowsRead = .ok (importing.logPlain "yaml.reader" rowsRead) ∧
      importing.logPlain "yaml.reader" rowsRead = [.document (.record [
        ("event", .text "3 rows read, 100%"), ("level", .text "warning"), ("job", .int 7)])] := by
  have hbound : ∀ name ∈ interpretedFields, name ∉ importing.bound.map Prod.fst := by decide
  have hfits : rowsRead.filled = .ok "3 rows read, 100%" := rfl
  obtain ⟨r, hlevel, hevent, hfields, hlog, hplain⟩ :=
    callers_alike importing "yaml.reader" rowsRead _ rfl hbound rfl hfits
  refine ⟨rfl, hbound, rfl, hfits, hlog, hplain.trans ?_⟩
  have hdue : rowsRead.level ≠ .notSet ∧
      (importing.threshold "yaml.reader").number ≤ rowsRead.level.number := by decide +kernel
  obtain ⟨level, event, fields⟩ := r
  dsimp only at hlevel hevent hfields
  rw [if_pos hdue, hlevel, hevent, hfields]
  rfl

end GraphImport.Log
