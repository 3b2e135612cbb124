import GraphImport.Proofs.Log.Emission
import GraphImport.Proofs.Rules.Notes

/-!
# What is logged of an examination

In a session that has no arguments bound every note becomes a record: one for each source with a
query, one for each node without a label that is come to, and one that tells the result if there is
one. A record shows what its note is about and the bound fields of other names. The level decides
which of these records are written, and their style whether they can be.
-/

namespace GraphImport.Log

open Document (Value)
open Rules (Note Problem Unlabelled notesOf notesOf_eq problemsIn problemsOf queriedSources
  unlabelledTargets walkedTargets)
open Spec (JobSpec Source Target)

namespace Session

/-- The record that tells an event and some fields, with the bound fields of other names. -/
def told (s : Session) (level : Level) (event : String) (fields : Fields) : Record where
  level
  event
  fields := fields ++ s.bound.filter fun field =>
    !reserved.contains field.1 && !fields.any (·.1 == field.1)

def sourceTold (s : Session) (source : Source) : Record :=
  s.told .debug "checking_source_order_by" [("source", .text source.name)]

def targetTold (s : Session) (t : Target) : Record :=
  s.told .info "invalid_node_target" [("target", t.toDocument)]

def resultTold (s : Session) (spec : JobSpec) (problems : List Problem) : Record :=
  s.told .info "job_spec_validated" [("sources", .int spec.sources.length),
    ("targets", .int spec.targets.length), ("actions", .int spec.actions.length),
    ("problems", .int problems.length)]

/-- The records about a job spec, whether their levels are written or not. -/
def narration (s : Session) (spec : JobSpec) : List Record :=
  (queriedSources spec).map s.sourceTold ++ (unlabelledTargets spec).map s.targetTold ++
    (problemsOf spec).toOption.toList.map (s.resultTold spec)

/-- Whether the style of a session shows the bound fields that stand beside some others, and a stack
and an exception that are bound, if any, can stand below a line. -/
structure BindsText (s : Session) (others : List String) : Prop where
  shown : ∀ field ∈ s.bound, field.1 ∉ reserved → field.1 ∉ others → s.style.shows field.2 = true
  appendable : s.style = .console → ∀ name ∈ appended, isAppendable (s.bound.lookup name) = true

/-- The record of a note. -/
def noteTold (s : Session) (note : Note) : Record :=
  s.told (ofNote note).level (ofNote note).event (ofNote note).fields

theorem recordOf_of_unbound {s : Session} {c : Call}
    (hbound : ∀ name ∈ interpretedFields, name ∉ s.bound.map Prod.fst)
    (hfields : ∀ name ∈ interpretedFields, name ∉ c.fields.map Prod.fst)
    (hfree : ∀ name ∈ reserved, name ∉ c.fields.map Prod.fst) (event : String) :
    s.recordOf c event = s.told c.level event c.fields := by
  have hown : (c.fields.filter fun field => !reserved.contains field.1) = c.fields := by
    rw [List.filter_eq_self]
    intro field hfield
    rw [Bool.not_eq_true', ← Bool.not_eq_true, List.contains_iff_mem]
    exact fun hname => hfree _ hname (List.mem_map_of_mem hfield)
  rw [recordOf, fieldsOf_of_unbound hbound hfields, joined, List.filter_append, hown,
    List.filter_filter]
  rfl

/-- Every note becomes its record. -/
theorem log_ofNote_of_unbound {s : Session}
    (hbound : ∀ name ∈ interpretedFields, name ∉ s.bound.map Prod.fst) (note : Note) :
    s.log rulesLogger (ofNote note) = .ok (s.write rulesLogger (s.noteTold note)) := by
  have hfields : ∀ name ∈ interpretedFields, name ∉ (ofNote note).fields.map Prod.fst := by
    cases note <;> simp [ofNote, interpretedFields, argumentsField]
  have hnames : ∀ name ∈ takenNames, name ∉ (ofNote note).fields.map Prod.fst := by
    cases note <;> simp [ofNote, takenNames]
  have hfree : ∀ name ∈ reserved, name ∉ (ofNote note).fields.map Prod.fst := by
    cases note <;> simp [ofNote, reserved]
  have hfilled : (ofNote note).filled = .ok (ofNote note).event := by cases note <;> rfl
  rw [log_of_eventOf hnames ((eventOf_of_unbound hbound hfields).trans hfilled),
    recordOf_of_unbound hbound hfields hfree, noteTold]

theorem logNotes_of_unbound {s : Session}
    (hbound : ∀ name ∈ interpretedFields, name ∉ s.bound.map Prod.fst) (notes : List Note) :
    s.logNotes notes = ((notes.map s.noteTold).flatMap (s.write rulesLogger), none) := by
  induction notes with
  | nil => rfl
  | cons note rest ih =>
    rw [logNotes, log_ofNote_of_unbound hbound]
    dsimp only
    rw [ih, List.map_cons, List.flatMap_cons]

theorem map_noteTold_notesOf (s : Session) (spec : JobSpec) :
    (notesOf spec).map s.noteTold = s.narration spec := by
  rw [notesOf_eq, List.map_append, List.map_append, List.map_map, List.map_map, List.map_map]
  rfl

/-- What an examination logs and finds when no arguments are bound. -/
theorem examine_of_unbound {s : Session}
    (hbound : ∀ name ∈ interpretedFields, name ∉ s.bound.map Prod.fst) (spec : JobSpec) :
    s.examine spec =
      ((s.narration spec).flatMap (s.write rulesLogger), (problemsOf spec).mapError .rules) := by
  rw [examine, logNotes_of_unbound hbound, map_noteTold_notesOf]

theorem exists_note_of_mem_narration {s : Session} {spec : JobSpec} {r : Record}
    (h : r ∈ s.narration spec) : ∃ note, r = s.noteTold note := by
  rw [← map_noteTold_notesOf] at h
  obtain ⟨note, _, rfl⟩ := List.mem_map.mp h
  exact ⟨note, rfl⟩

theorem level_of_mem_narration {s : Session} {spec : JobSpec} {r : Record}
    (h : r ∈ s.narration spec) : r.level = .debug ∨ r.level = .info := by
  obtain ⟨note, rfl⟩ := exists_note_of_mem_narration h
  cases note with
  | checkingOrderBy source => exact .inl rfl
  | invalidNodeTarget t => exact .inr rfl
  | validated sources targets actions problems => exact .inr rfl

section Told

variable {s : Session} {level : Level} {event : String} {fields : Fields}

/-- What is told of a name that is neither told by itself nor left out is what is bound to it. -/
theorem lookup_told {name : String} (hown : name ∉ fields.map Prod.fst)
    (hfree : reserved.contains name = false) :
    (s.told level event fields).fields.lookup name = s.bound.lookup name := by
  rw [told]
  dsimp only
  rw [List.lookup_append, lookup_eq_none_of_notMem hown, Option.none_or]
  apply lookup_filter_of_kept fun key =>
    !reserved.contains key && !fields.any (·.1 == key)
  rw [hfree, any_eq_false_of_notMem hown]
  rfl

/-- A field is told with others when it is one of them, or is bound to another name and not left
out. -/
theorem forall_mem_told {P : String × Value → Prop} :
    (∀ field ∈ (s.told level event fields).fields, P field) ↔
      (∀ field ∈ fields, P field) ∧
        ∀ field ∈ s.bound, field.1 ∉ reserved → field.1 ∉ fields.map Prod.fst → P field := by
  rw [told, List.forall_mem_append]
  refine and_congr_right fun _ => forall_congr' fun field => ?_
  have hany : fields.any (·.1 == field.1) = true ↔ field.1 ∈ fields.map Prod.fst := by
    simp only [List.any_eq_true, beq_iff_eq, List.mem_map]
  have hkept : field ∈ s.bound.filter (fun field =>
        !reserved.contains field.1 && !fields.any (·.1 == field.1)) ↔
      field ∈ s.bound ∧ field.1 ∉ reserved ∧ field.1 ∉ fields.map Prod.fst := by
    rw [List.mem_filter, Bool.and_eq_true, Bool.not_eq_true', Bool.not_eq_true',
      ← Bool.not_eq_true, ← Bool.not_eq_true, List.contains_iff_mem, hany]
  rw [hkept, and_imp, and_imp]

/-- Fields that do not stand below a line are shown beside the bound ones. -/
theorem told_hasText (hown : ∀ name ∈ appended, name ∉ fields.map Prod.fst) :
    (s.told level event fields).HasText s.style ↔
      (∀ field ∈ fields, s.style.shows field.2 = true) ∧ s.BindsText (fields.map Prod.fst) := by
  have hfree : ∀ name ∈ appended, reserved.contains name = false := by decide
  have happendable : (∀ name ∈ appended,
      isAppendable ((s.told level event fields).fields.lookup name) = true) ↔
      ∀ name ∈ appended, isAppendable (s.bound.lookup name) = true :=
    forall₂_congr fun name hname => by rw [lookup_told (hown name hname) (hfree name hname)]
  constructor
  · intro h
    obtain ⟨hfields, hbound⟩ := forall_mem_told.mp h.shown
    exact ⟨hfields, hbound, fun hstyle => happendable.mp (h.appendable hstyle)⟩
  · rintro ⟨hfields, hbound⟩
    exact ⟨forall_mem_told.mpr ⟨hfields, hbound.shown⟩,
      fun hstyle => happendable.mpr (hbound.appendable hstyle)⟩

end Told

/-- Of the records of the rules those are written whose level is not below that of the session. -/
theorem flatMap_write {s : Session} (hopen : s.isOpen = true) {records : List Record}
    (hset : ∀ r ∈ records, r.level ≠ .notSet) :
    records.flatMap (s.write rulesLogger) =
      (records.filter fun r => s.level.number ≤ r.level.number).flatMap
        fun r => r.lines s.style := by
  induction records with
  | nil => rfl
  | cons r rest ih =>
    rw [List.forall_mem_cons] at hset
    rw [List.flatMap_cons, ih hset.2, write, writes, hopen, threshold_rulesLogger,
      List.filter_cons, bne_iff_ne.mpr hset.1, Bool.true_and, Bool.true_and]
    split <;> rfl

theorem notSet_notMem_narration (s : Session) (spec : JobSpec) :
    ∀ r ∈ s.narration spec, r.level ≠ .notSet := by
  intro r hr
  rcases level_of_mem_narration hr with h | h <;> rw [h] <;> exact Level.noConfusion

end Session

section Shown

variable (style : Style)

@[simp] theorem shows_wordOrNull {α : Type} [Spec.Vocabulary α] (member? : Option α) :
    style.shows (Spec.wordOrNull member?) = true := by
  cases member? with
  | none => exact shows_null style
  | some member => exact shows_text style _

/-- The only number in a target is its limit. -/
theorem shows_target (t : Target) :
    style.shows t.toDocument = !Number.isLong t.transform.limit := by
  have hmappings : t.mappings.all (style.shows ∘ Spec.Mapping.toDocument) = true := by
    rw [List.all_eq_true]
    intro m _
    simp [Spec.Mapping.toDocument]
  have haggregations :
      t.transform.aggregations.all (style.shows ∘ Spec.Aggregation.toDocument) = true := by
    rw [List.all_eq_true]
    intro a _
    simp [Spec.Aggregation.toDocument]
  simp [Target.toDocument, Spec.Transform.toDocument, hmappings, haggregations]

end Shown

namespace Session

variable (s : Session)

theorem sourceTold_hasText (source : Source) :
    (s.sourceTold source).HasText s.style ↔ s.BindsText ["source"] := by
  rw [sourceTold, told_hasText (by simp [appended])]
  simp

theorem targetTold_hasText (t : Target) :
    (s.targetTold t).HasText s.style ↔
      Number.isLong t.transform.limit = false ∧ s.BindsText ["target"] := by
  rw [targetTold, told_hasText (by simp [appended])]
  simp [shows_target]

theorem resultTold_hasText (spec : JobSpec) (problems : List Problem) :
    (s.resultTold spec problems).HasText s.style ↔
      (∀ n ∈ [spec.sources.length, spec.targets.length, spec.actions.length, problems.length],
        Number.isLong n = false) ∧ s.BindsText ["sources", "targets", "actions", "problems"] := by
  rw [resultTold, told_hasText (by simp [appended])]
  simp

end Session

open Session

/-- An open session that has no field bound that is not shown as it is logs an examination. At the
level of details one record is written for each source with a query, in order, then one for each
node without a label up to a target of a type without rules, and last one for the result if there
is one; at the level of information only those at that level are, and above it none. A record takes
a line exactly when the style of the session shows what is bound beside its own fields and these
hold no number with too many digits: a limit of a target is one, and the counts of the result are.
The nodes told are those that a missing label is found of, and a result means that all active
targets have been looked at. -/
theorem examination_narrated (s : Session) (spec : JobSpec) (hopen : s.isOpen = true)
    (hbound : ∀ name ∈ interpretedFields, name ∉ s.bound.map Prod.fst) :
    (s.examine spec).2 = (problemsOf spec).mapError .rules ∧
    (s.level = .debug →
      (s.examine spec).1 = (s.narration spec).flatMap fun r => r.lines s.style) ∧
    (s.level = .info → (s.examine spec).1 =
      ((s.narration spec).filter fun r => r.level == .info).flatMap fun r => r.lines s.style) ∧
    (Level.warning.number ≤ s.level.number → (s.examine spec).1 = []) ∧
    (∀ source, (s.sourceTold source).lines s.style ≠ [] ↔ s.BindsText ["source"]) ∧
    (∀ t, (s.targetTold t).lines s.style ≠ [] ↔
      Number.isLong t.transform.limit = false ∧ s.BindsText ["target"]) ∧
    (∀ problems, (s.resultTold spec problems).lines s.style ≠ [] ↔
      (∀ n ∈ [spec.sources.length, spec.targets.length, spec.actions.length, problems.length],
        Number.isLong n = false) ∧ s.BindsText ["sources", "targets", "actions", "problems"]) ∧
    (problemsIn (Rules.examine spec).findings).filter Problem.isNoLabel =
      (unlabelledTargets spec).map (fun t => .noLabel t.name) ∧
    ∀ problems, problemsOf spec = .ok problems →
      problemsIn (Rules.examine spec).findings = problems ∧
        walkedTargets spec = spec.activeTargets := by
  have hexamine := examine_of_unbound hbound spec
  have hwritten := flatMap_write hopen (notSet_notMem_narration s spec)
  refine ⟨congrArg Prod.snd hexamine, fun hlevel => ?_, fun hlevel => ?_, fun hlevel => ?_,
    fun source => Record.lines_ne_nil_iff.trans (s.sourceTold_hasText source),
    fun t => Record.lines_ne_nil_iff.trans (s.targetTold_hasText t),
    fun problems => Record.lines_ne_nil_iff.trans (s.resultTold_hasText spec problems),
    Rules.filter_isNoLabel_examine spec, fun problems hproblems =>
      ⟨Rules.problemsIn_examine_of_ok hproblems, Rules.walkedTargets_of_ok hproblems⟩⟩
  · have hall : ((s.narration spec).filter fun r => s.level.number ≤ r.level.number) =
        s.narration spec := by
      rw [List.filter_eq_self]
      intro r hr
      rcases level_of_mem_narration hr with h | h <;> rw [hlevel, h] <;> rfl
    rw [hexamine, hwritten, hall]
  · have hinfo : ((s.narration spec).filter fun r => s.level.number ≤ r.level.number) =
        (s.narration spec).filter fun r => r.level == .info := by
      apply List.filter_congr
      intro r hr
      rcases level_of_mem_narration hr with h | h <;> rw [hlevel, h] <;> rfl
    rw [hexamine, hwritten, hinfo]
  · have hnone : ((s.narration spec).filter fun r => s.level.number ≤ r.level.number) = [] := by
      rw [List.filter_eq_nil_iff]
      intro r hr hle
      have habove := hlevel.trans (of_decide_eq_true hle)
      rcases level_of_mem_narration hr with h | h <;> rw [h] at habove <;>
        exact absurd habove (by decide)
    rw [hexamine, hwritten, hnone]
    rfl

/-- A session at the level of details that has fields bound, one of which every query has too. -/
def detailing : Session where
  level := .debug
  style := .json
  isOpen := true
  bound := [("source", .text "elsewhere"), ("job", .int 7)]

/-- A node with a key and no label. -/
def unlabelled : Target where
  name := "Person"
  type := .node
  source := "people"
  mappings := [{ name := "id", field := "id", fragment := .node, role := .key }]

/-- Two sources, one of them with a query, and two such nodes, one of them not active. -/
def census : JobSpec where
  sources := [{ name := "people", query := "SELECT id FROM people" }, { name := "places" }]
  targets := [{ unlabelled with active := false }, unlabelled]

theorem census_narrated :
    detailing.isOpen = true ∧
      (∀ name ∈ interpretedFields, name ∉ detailing.bound.map Prod.fst) ∧
      (detailing.examine census).2 = .ok [.noLabel "Person"] ∧
      (detailing.examine census).1 = [
        .document (.record [("event", .text "checking_source_order_by"), ("level", .text "debug"),
          ("source", .text "people"), ("job", .int 7)]),
        .document (.record [("event", .text "invalid_node_target"), ("level", .text "info"),
          ("target", unlabelled.toDocument), ("source", .text "elsewhere"), ("job", .int 7)]),
        .document (.record [("event", .text "job_spec_validated"), ("level", .text "info"),
          ("sources", .int 2), ("targets", .int 2), ("actions", .int 0), ("problems", .int 1),
          ("source", .text "elsewhere"), ("job", .int 7)])] := by
  have hbound : ∀ name ∈ interpretedFields, name ∉ detailing.bound.map Prod.fst := by decide
  obtain ⟨hfound, hlines, -⟩ := examination_narrated detailing census rfl hbound
  exact ⟨rfl, hbound, hfound.trans rfl, (hlines rfl).trans rfl⟩

/-- Whether the sessions of a style that have some fields bound, none of which is not shown as it
is, tell the result of a job spec without any part at the level of details. -/
def NarratedWith (style : Style) (bound : Fields) : Prop :=
  ∀ s : Session, s.isOpen = true → s.style = style → s.bound = bound →
    (∀ name ∈ interpretedFields, name ∉ s.bound.map Prod.fst) → s.level = .debug →
      problemsOf {} = .ok [.noActiveTarget] → (s.examine {}).1 ≠ []

/-- A session at the level of details. -/
def noting (style : Style) (bound : Fields) : Session where
  level := .debug
  style
  isOpen := true
  bound

theorem not_narratedWith {style : Style} {bound : Fields}
    (hbound : ∀ name ∈ interpretedFields, name ∉ bound.map Prod.fst)
    (h : ¬ (noting style bound).BindsText ["sources", "targets", "actions", "problems"]) :
    ¬ NarratedWith style bound := by
  have hlost : ((noting style bound).resultTold {} [.noActiveTarget]).lines style = [] :=
    Record.lines_eq_nil_iff.mpr fun htext => h ((resultTold_hasText _ {} _).mp htext).2
  intro hall
  refine hall (noting style bound) rfl rfl rfl hbound rfl rfl ?_
  rw [examine_of_unbound hbound, flatMap_write rfl (notSet_notMem_narration _ _)]
  exact (List.append_nil _).trans hlost

/-- No style shows a number with too many digits. -/
theorem not_narratedWith_of_isLong {n : Int} (h : Number.isLong n = true) (style : Style) :
    ¬ NarratedWith style [("bytes", .int n)] := by
  refine not_narratedWith (by simp [interpretedFields, argumentsField]) fun htext => ?_
  have hshown : style.shows (.int n) = true :=
    htext.shown ("bytes", .int n) List.mem_cons_self (by simp [reserved]) (by simp)
  rw [shows_int, h] at hshown
  exact Bool.false_ne_true hshown

/-- The same node with a limit. -/
def unlabelledUpTo (n : Int) : Target :=
  { unlabelled with transform := { limit := n } }

/-- A job spec for that node alone. -/
def limited (n : Int) : JobSpec where
  sources := [{ name := "people" }]
  targets := [unlabelledUpTo n]

/-- Whether the sessions at the level of information that write documents tell each missing label
and the result of a job spec. -/
def ToldInDocuments (spec : JobSpec) : Prop :=
  ∀ (s : Session) (problems : List Problem), s.isOpen = true → s.style = .json → s.bound = [] →
    s.level = .info → problemsOf spec = .ok problems →
      (s.examine spec).1.length = (problems.filter Problem.isNoLabel).length + 1

/-- A session at the level of information that writes documents. -/
def reporting : Session where
  level := .info
  style := .json
  isOpen := true

theorem length_document_le (r : Record) : (r.lines .json).length ≤ 1 := by
  rw [Record.lines]
  split
  · exact Nat.le_refl 1
  · exact Nat.zero_le 1

theorem not_toldInDocuments {n : Int} (h : Number.isLong n = true)
    (hproblems : problemsOf (limited n) = .ok [.noLabel "Person"]) :
    ¬ ToldInDocuments (limited n) := by
  intro hall
  have hlost : (reporting.targetTold (unlabelledUpTo n)).lines .json = [] := by
    refine Record.lines_eq_nil_iff.mpr fun htext => ?_
    have hlimit := ((reporting.targetTold_hasText _).mp htext).1
    exact Bool.false_ne_true (hlimit.symm.trans h)
  have hlines : (reporting.examine (limited n)).1 =
      (reporting.targetTold (unlabelledUpTo n)).lines .json ++
        ((reporting.resultTold (limited n) [.noLabel "Person"]).lines .json ++ []) := by
    rw [examine_of_unbound (fun _ _ => List.not_mem_nil),
      flatMap_write rfl (notSet_notMem_narration _ _), narration, hproblems]
    rfl
  have htwo : (reporting.examine (limited n)).1.length = 2 :=
    hall reporting [.noLabel "Person"] rfl rfl rfl rfl hproblems
  rw [hlines, hlost, List.nil_append, List.append_nil] at htwo
  have hone := length_document_le (reporting.resultTold (limited n) [.noLabel "Person"])
  omega

/-- What a style does not show keeps an examination from being told: on the console a number bound
as a stack, in documents a mapping bound whose key is a date, and in both a number that has too
many digits, whether it is bound or the limit of a target. -/
theorem unshown_not_narrated :
    ¬ NarratedWith .console [("stack", .int 5)] ∧
      ¬ NarratedWith .json [("counts", .map [(.date ⟨2024, 2, 1⟩, .int 5)])] ∧
      (∀ style, ¬ NarratedWith style [("bytes", .int (10 ^ Number.maxDigits : Nat))]) ∧
      ¬ ToldInDocuments (limited (10 ^ Number.maxDigits : Nat)) := by
  have hlong : Number.isLong (10 ^ Number.maxDigits : Nat) = true :=
    isLong_iff.mpr (Nat.le_refl _)
  have hproblems : (problemsOf (limited (10 ^ Number.maxDigits : Nat))).toOption =
      some [.noLabel "Person"] := by decide +kernel
  refine ⟨not_narratedWith (by decide) fun htext => ?_, not_narratedWith (by decide) fun htext => ?_,
    not_narratedWith_of_isLong hlong,
    not_toldInDocuments hlong (except_toOption_eq_some.mp hproblems)⟩
  · exact Bool.false_ne_true (htext.appendable rfl "stack" (by decide))
  · exact Bool.false_ne_true
      (htext.shown ("counts", _) List.mem_cons_self (by decide) (by decide))

end GraphImport.Log
