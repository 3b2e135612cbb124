import GraphImport.Log.Session
import GraphImport.Proofs.Except

/-!
# Logging notes

A note of the rules brings no arguments for its event, and its event has no conversions, so only
bound arguments can keep a record from being made of it. They do, of every note alike, unless an
event may leave them unused. Configuring a session binds nothing.
-/

namespace GraphImport.Log

open Document (Value)
open Rules (Note)

section Events

/-- An event without conversions uses no arguments. -/
theorem fillFrom_plain {cs : List Char} (hplain : '%' ∉ cs) (size : Nat) {fuel : Nat}
    (hfuel : cs.length < fuel) (a : Arguments) :
    fillFrom size fuel a cs = if a.isDone then .ok cs else .error .argumentsLeft := by
  induction cs generalizing fuel with
  | nil =>
    obtain ⟨fuel, rfl⟩ := Nat.exists_eq_add_one_of_ne_zero (Nat.ne_of_gt hfuel)
    rw [fillFrom]
  | cons c rest ih =>
    obtain ⟨fuel, rfl⟩ := Nat.exists_eq_add_one_of_ne_zero (Nat.ne_zero_of_lt hfuel)
    rw [List.mem_cons, not_or] at hplain
    rw [fillFrom]
    · rw [ih hplain.2 (Nat.lt_of_succ_lt_succ hfuel)]
      cases a.isDone <;> rfl
    · rintro rfl
      exact hplain.1 rfl

theorem fillEvent_plain {event : String} (hplain : '%' ∉ event.toList) (a : Arguments) :
    fillEvent event (some a) =
      if a.isDone then .ok event else .error (.template .argumentsLeft) := by
  rw [fillEvent, fill, fillFrom_plain hplain _ (Nat.lt_succ_self _)]
  cases a.isDone with
  | true => exact congrArg Except.ok String.ofList_toList
  | false => rfl

/-- Arguments that an event without conversions may leave unused. The only entry of a mapping has
to be the one that is looked up. -/
def IsIdle : Value → Prop
  | .list _ | .bytes _ => True
  | .map [entry] => entry.1.sameKey (.int 0) = true
  | .map _ => True
  | v => v.isEmpty = true

theorem IsIdle.of_isEmpty {v : Value} (h : v.isEmpty = true) : IsIdle v := by
  cases v with
  | list items => exact trivial
  | bytes content => exact trivial
  | map entries =>
    have hnil : entries = [] := List.isEmpty_iff.mp h
    rw [hnil]
    exact trivial
  | _ => exact h

theorem isDone_ofPart {v : Value} (h : (Arguments.ofValue v).isDone = true) (part : Value) :
    (Arguments.ofPart v part).isDone = true := by
  unfold Arguments.ofPart
  split
  · rfl
  · exact h

theorem fieldArguments?_of_idle {v : Value} (h : IsIdle v) :
    ∃ arguments?, fieldArguments? v = .ok arguments? ∧
      ∀ a, arguments? = some a → a.isDone = true := by
  unfold fieldArguments?
  by_cases hempty : v.isEmpty = true
  · rw [if_pos hempty]
    exact ⟨none, rfl, nofun⟩
  · rw [if_neg hempty]
    cases v with
    | list items =>
      match items with
      | [part] => exact ⟨_, rfl, by rintro _ ⟨⟩; exact isDone_ofPart rfl part⟩
      | [] => exact ⟨_, rfl, by rintro _ ⟨⟩; rfl⟩
      | _ :: _ :: _ => exact ⟨_, rfl, by rintro _ ⟨⟩; rfl⟩
    | bytes content => exact ⟨_, rfl, by rintro _ ⟨⟩; rfl⟩
    | map entries =>
      match entries, h with
      | [], _ => exact absurd rfl hempty
      | [(key, part)], hkey =>
        exact ⟨_, if_pos hkey, by rintro _ ⟨⟩; exact isDone_ofPart rfl part⟩
      | _ :: _ :: _, _ => exact ⟨_, rfl, by rintro _ ⟨⟩; rfl⟩
    | _ => exact absurd h hempty

theorem fieldArguments?_of_not_idle {v : Value} (h : ¬ IsIdle v) :
    (∃ fault, fieldArguments? v = .error fault) ∨
      ∃ a, fieldArguments? v = .ok (some a) ∧ a.isDone = false := by
  unfold fieldArguments?
  rw [if_neg (mt IsIdle.of_isEmpty h)]
  cases v with
  | text s => exact .inr ⟨_, rfl, rfl⟩
  | brokenText => exact .inr ⟨_, rfl, rfl⟩
  | list items => exact absurd trivial h
  | bytes content => exact absurd trivial h
  | set members =>
    match members with
    | [] => exact .inr ⟨_, rfl, rfl⟩
    | [_] => exact .inl ⟨_, rfl⟩
    | _ :: _ :: _ => exact .inr ⟨_, rfl, rfl⟩
  | map entries =>
    match entries, h with
    | [], h => exact absurd trivial h
    | [(key, part)], hkey => exact .inl ⟨_, if_neg hkey⟩
    | _ :: _ :: _, h => exact absurd trivial h
  | _ => exact .inl ⟨_, rfl⟩

/-- Idle arguments leave an event without conversions as it is. -/
theorem IsIdle.fillEvent {v : Value} (h : IsIdle v) {event : String}
    (hplain : '%' ∉ event.toList) :
    fieldArguments? v >>= Log.fillEvent event = .ok event := by
  obtain ⟨arguments?, harguments, hdone⟩ := fieldArguments?_of_idle h
  rw [except_bind_eq_ok]
  refine ⟨arguments?, harguments, ?_⟩
  cases arguments? with
  | none => rfl
  | some a => rw [fillEvent_plain hplain, hdone a rfl, if_pos rfl]

/-- Any other arguments are a fault for all such events. -/
theorem exists_fault_of_not_idle {v : Value} (h : ¬ IsIdle v) : ∃ fault, ∀ event : String,
    '%' ∉ event.toList → fieldArguments? v >>= fillEvent event = .error fault := by
  rcases fieldArguments?_of_not_idle h with ⟨fault, hfault⟩ | ⟨a, ha, hleft⟩
  · exact ⟨fault, fun event _ => except_bind_eq_error.mpr (.inl hfault)⟩
  · refine ⟨.template .argumentsLeft, fun event hplain => ?_⟩
    rw [except_bind_eq_error]
    refine .inr ⟨some a, ha, ?_⟩
    rw [fillEvent_plain hplain, hleft]
    rfl

end Events

theorem ofNote_plain (note : Note) : '%' ∉ (ofNote note).event.toList := by
  cases note <;> dsimp only [ofNote] <;> decide

section Lookup

variable {fields : Fields} {name : String}

theorem lookup_eq_none_of_notMem (h : name ∉ fields.map Prod.fst) :
    fields.lookup name = none := by
  rw [List.lookup_eq_none_iff]
  intro field hfield
  rw [bne_iff_ne]
  rintro rfl
  exact h (List.mem_map_of_mem hfield)

/-- Fields under other names may be left out. -/
theorem lookup_filter_of_kept (keep : String → Bool) (h : keep name = true) :
    (fields.filter fun field => keep field.1).lookup name = fields.lookup name := by
  induction fields with
  | nil => rfl
  | cons field rest ih =>
    obtain ⟨key, v⟩ := field
    rw [List.filter_cons]
    dsimp only
    by_cases hkey : name = key
    · subst hkey
      rw [if_pos h, List.lookup_cons_self, List.lookup_cons_self]
    · have hother : (name == key) = false := beq_false_of_ne hkey
      split
      · rw [List.lookup_cons, List.lookup_cons, hother, ih]
      · rw [List.lookup_cons, hother, ih]

theorem any_eq_false_of_notMem (h : name ∉ fields.map Prod.fst) :
    fields.any (·.1 == name) = false := by
  rw [List.any_eq_false]
  intro field hfield hname
  exact h (List.mem_map.mpr ⟨field, hfield, beq_iff_eq.mp hname⟩)

theorem lookup_filter_unlisted (h : name ∉ fields.map Prod.fst) (bound : Fields) :
    (bound.filter fun (key, _) => !fields.any (·.1 == key)).lookup name = bound.lookup name :=
  lookup_filter_of_kept (fun key => !fields.any (·.1 == key))
    (by rw [any_eq_false_of_notMem h, Bool.not_false])

theorem firstNamed?_eq_none {names : List String}
    (h : ∀ name ∈ names, name ∉ fields.map Prod.fst) : firstNamed? fields names = none := by
  rw [firstNamed?, Option.map_eq_none_iff, List.find?_eq_none]
  intro field hfield hname
  exact h _ (List.contains_iff_mem.mp hname) (List.mem_map_of_mem hfield)

end Lookup

namespace Session

/-- The arguments that are bound; null when there are none. -/
def boundArguments (s : Session) : Value :=
  (s.bound.lookup argumentsField).getD .null

theorem configure_bound (s : Session) (style : Style) (name : String) :
    (s.configure style name).1.bound = s.bound := by
  unfold configure
  cases Level.ofName? name with
  | some level => rfl
  | none =>
    dsimp only
    cases layoutFault? (Text.capitals name) <;> rfl

/-- Fields that hold no arguments leave the bound ones in force. -/
theorem lookup_joined (s : Session) {fields : Fields} (h : argumentsField ∉ fields.map Prod.fst) :
    ((s.joined fields).lookup argumentsField).getD .null = s.boundArguments := by
  rw [joined, List.lookup_append, lookup_eq_none_of_notMem h, Option.none_or,
    lookup_filter_unlisted h, boundArguments]

/-- A call is logged once its record is made, unless a part of it is passed on under the name of a
field. -/
theorem log_of_unnamed (s : Session) {c : Call}
    (hnames : ∀ name ∈ methodNames ++ sharedMethodNames, name ∉ c.fields.map Prod.fst)
    (logger : String) : s.log logger c = s.write logger <$> s.record c := by
  rw [List.forall_mem_append] at hnames
  rw [log, firstNamed?_eq_none hnames.1, firstNamed?_eq_none hnames.2]
  rfl

/-- A record of a note is made once its event is filled in with the bound arguments. -/
theorem log_ofNote (s : Session) (note : Note) :
    s.log rulesLogger (ofNote note) =
      (fieldArguments? s.boundArguments >>= fillEvent (ofNote note).event) >>= fun event =>
        .ok (s.write rulesLogger {
          level := (ofNote note).level, event,
          fields := kept (withStack (ofNote note).stack (s.joined (ofNote note).fields)) }) := by
  have hnames : ∀ name ∈ methodNames ++ sharedMethodNames,
      name ∉ (ofNote note).fields.map Prod.fst := by
    cases note <;> simp [ofNote, methodNames, sharedMethodNames]
  have harguments : (ofNote note).arguments = [] := by cases note <;> rfl
  have hfields : argumentsField ∉ (ofNote note).fields.map Prod.fst := by
    cases note <;> simp [ofNote, argumentsField]
  rw [log_of_unnamed s hnames, record]
  simp only [harguments, List.isEmpty_nil, if_true, s.lookup_joined hfields]
  cases fieldArguments? s.boundArguments with
  | error fault => rfl
  | ok arguments? =>
    change _ <$> (fillEvent (ofNote note).event arguments? >>= _) =
      fillEvent (ofNote note).event arguments? >>= _
    cases fillEvent (ofNote note).event arguments? <;> rfl

theorem log_of_idle {s : Session} (h : IsIdle s.boundArguments) (note : Note) :
    ∃ lines, s.log rulesLogger (ofNote note) = .ok lines := by
  rw [log_ofNote, h.fillEvent (ofNote_plain note)]
  exact ⟨_, rfl⟩

/-- With idle bound arguments all notes are logged. -/
theorem logNotes_of_idle {s : Session} (h : IsIdle s.boundArguments) (notes : List Note) :
    (s.logNotes notes).2 = none := by
  induction notes with
  | nil => rfl
  | cons note rest ih =>
    obtain ⟨lines, hlog⟩ := log_of_idle h note
    rw [logNotes, hlog]
    exact ih

/-- With any other bound arguments the first note is not. -/
theorem logNotes_of_not_idle {s : Session} (h : ¬ IsIdle s.boundArguments) {notes : List Note}
    (hnotes : notes ≠ []) : ∃ fault, s.logNotes notes = ([], some fault) := by
  obtain ⟨fault, hfault⟩ := exists_fault_of_not_idle h
  cases notes with
  | nil => exact absurd rfl hnotes
  | cons note rest =>
    refine ⟨fault, ?_⟩
    rw [logNotes, log_ofNote, hfault _ (ofNote_plain note)]
    rfl

theorem boundArguments_of_bound_eq_nil {s : Session} (hbound : s.bound = []) :
    s.boundArguments = .null := by
  rw [boundArguments, hbound]
  rfl

/-- Without bound fields all notes are logged. -/
theorem logNotes_fault {s : Session} (hbound : s.bound = []) (notes : List Note) :
    (s.logNotes notes).2 = none := by
  apply logNotes_of_idle
  rw [boundArguments_of_bound_eq_nil hbound]
  rfl

/-- The rules are no parser. -/
theorem threshold_rulesLogger (s : Session) : s.threshold rulesLogger = s.level := by
  have hlogger : isParserLogger rulesLogger = false := by decide +kernel
  rw [threshold, hlogger, if_neg Bool.false_ne_true]

/-- Notes are about details, which a session at the level of warnings leaves out. -/
theorem logNotes_of_warning {s : Session} (hbound : s.bound = []) (hlevel : s.level = .warning)
    (notes : List Note) : s.logNotes notes = ([], none) := by
  have hidle : IsIdle s.boundArguments := by
    rw [boundArguments_of_bound_eq_nil hbound]
    rfl
  induction notes with
  | nil => rfl
  | cons note rest ih =>
    have hlog : s.log rulesLogger (ofNote note) = .ok [] := by
      have hwrites : s.writes rulesLogger (ofNote note).level = false := by
        rw [writes, threshold_rulesLogger, hlevel]
        cases note <;> exact Bool.and_false _
      rw [log_ofNote, hidle.fillEvent (ofNote_plain note)]
      change Except.ok (s.write rulesLogger _) = _
      rw [write, hwrites, if_neg Bool.false_ne_true]
    rw [logNotes, hlog]
    dsimp only
    rw [ih]
    rfl

end Session

end GraphImport.Log
